import ContainerCheck.Proofs.ScenarioAccounts

namespace ContainerCheck.Check

open ContainerCheck.Cri ContainerCheck.Host ContainerCheck.Poll ContainerCheck.Session

variable {σ α β γ : Type}

theorem bind_assoc_run (step : Session σ α) (next : α → Session σ β) (last : β → Session σ γ) :
    (step >>= next) >>= last = step >>= fun value => next value >>= last := by
  funext w
  simp only [bind_run]
  rcases step w with ⟨result, w'⟩
  cases result <;> rfl

def OnlyReads (path : String) (trace : List (Note σ)) : Prop :=
  ∀ note ∈ trace, note.deed = .readLog path

def Avoids (path : String) (trace : List (Note σ)) : Prop :=
  ∀ note ∈ trace, note.deed ≠ .readLog path

def Counts (path : String) (n : Nat) (note : Note σ) : Prop :=
  ∃ records, recordsOf path (note.before.tree.read path) = .ok records ∧ records.length = n

def Steady (path : String) (trace : List (Note σ)) : Prop :=
  ∃ n, ∀ note ∈ trace, note.deed = .readLog path → Counts path n note

/-- Only what reads the log file counts. -/
theorem Steady.of_reads {path : String} {trace trace' : List (Note σ)} (h : Steady path trace)
    (hreads : ∀ note ∈ trace', note.deed = .readLog path → note ∈ trace) : Steady path trace' := by
  obtain ⟨n, hcounts⟩ := h
  exact ⟨n, fun note hnote hdeed => hcounts note (hreads note hnote hdeed) hdeed⟩

theorem Steady.of_append_right {path : String} {trace more : List (Note σ)}
    (h : Steady path (trace ++ more)) : Steady path more :=
  h.of_reads fun _ hnote _ => List.mem_append_right trace hnote

theorem Steady.behind {path : String} {trace more : List (Note σ)}
    (hother : Avoids path trace) (h : Steady path more) :
    Steady path (trace ++ more) := by
  refine h.of_reads fun note hnote hdeed => ?_
  rcases List.mem_append.mp hnote with hmem | hmem
  · exact absurd hdeed (hother note hmem)
  · exact hmem

theorem Avoids.append {path : String} {trace more : List (Note σ)} (h : Avoids path trace)
    (h' : Avoids path more) : Avoids path (trace ++ more) := by
  intro note hnote
  rcases List.mem_append.mp hnote with hmem | hmem
  · exact h note hmem
  · exact h' note hmem

theorem avoids_of_kinds {kinds : List Deed.Kind} {trace : List (Note σ)}
    (h : OfKinds kinds trace) (hkinds : .readLog ∉ kinds) (path : String) : Avoids path trace := by
  intro note hnote hdeed
  have hkind := h note hnote
  rw [hdeed] at hkind
  exact hkinds hkind

/-- Whether signs are seen and a log file that has been put aside stays as it is. -/
def Settles (rotated : String) (signs : List (Sign σ)) (trace : List (Note σ)) : Prop :=
  Shows signs trace ∧ Steady rotated trace

/-- What the evidence of a scenario is about: a container, a log file and an image. -/
structure Topic where
  id : ContainerId
  path : String := ""
  image : Image := ⟨""⟩

def Topic.rotated (topic : Topic) : String := topic.path ++ Harness.rotatedSuffix

/-- Whether no log file has been put aside as these signs would show. -/
def Unsettled (signs : Topic → List (Sign σ)) (trace : List (Note σ)) : Prop :=
  ∀ topic, ¬ Settles topic.rotated (signs topic) trace

theorem outside_unsettled {kinds : List Deed.Kind} {sign : Topic → Sign σ}
    {signs : Topic → List (Sign σ)} (hkind : ∀ topic, (sign topic).kind ∉ kinds) :
    Outside kinds (Unsettled fun topic => sign topic :: signs topic) where
  alone := by
    rintro trace htrace topic ⟨hseen, -⟩
    exact (outside_lacks (hkind topic)).alone trace htrace hseen
  before := by
    rintro trace more htrace hmore topic ⟨hseen, hsteady⟩
    refine hmore topic ⟨hseen.of_append_left ?_, hsteady.of_append_right⟩
    exact Sign.not_shownBy (hkind topic) htrace

section

variable {scenario : Scenario}

/-- A step that gives a sign or fails without it, before others that settle. -/
theorem Accounts.proceeding {kinds kinds' : List Deed.Kind} {sign second : Topic → Sign σ}
    {rest : Topic → List (Sign σ)} {signs more : List (Sign σ)} {rotated : String}
    {first : Session σ α} {next : α → Session σ β}
    (hfirst : Accounts scenario kinds (fun _ => Shows signs)
      (fun trace => ∀ topic, Lacks [sign topic] trace) first)
    (hread : .readLog ∉ kinds) (hkind : ∀ topic, (second topic).kind ∉ kinds)
    (hnext : ∀ value, Accounts scenario kinds' (fun _ => Settles rotated more)
      (Unsettled fun topic => second topic :: rest topic) (next value)) :
    Accounts scenario (kinds ++ kinds') (fun _ => Settles rotated (signs ++ more))
      (Unsettled fun topic => sign topic :: second topic :: rest topic) (first >>= next) := by
  refine Accounts.bind hfirst.withKinds hnext ?_ ?_ ?_
  · rintro value last trace after ⟨hkinds, hseen⟩ ⟨hafter, hsteady⟩
    exact ⟨hseen.append hafter, hsteady.behind (avoids_of_kinds hkinds hread rotated)⟩
  · rintro trace - hlacks topic ⟨hseen, -⟩
    obtain ⟨note, hnote, hshown⟩ := hseen.exists_mem
    exact hlacks topic (.of_mem hnote hshown)
  · rintro value trace after htrace - hafter topic ⟨hseen, hsteady⟩
    refine hafter topic ⟨hseen.tail.of_append_left ?_, hsteady.of_append_right⟩
    exact Sign.not_shownBy (hkind topic) htrace

theorem does_readLog (path : String) :
    Does .readLog (fun result note => note.deed = .readLog path ∧
      result = recordsOf path (note.before.tree.read path))
      (Session.readLog path : Session σ (List Log.Record)) :=
  does_inspect (.readLog path) fun tree => recordsOf path (tree.read path)

theorem serves_readLog {path : String} (records : List Log.Record) (note : Note σ)
    (h : note.deed = .readLog path ∧ .ok records = recordsOf path (note.before.tree.read path)) :
    Serves scenario note :=
  serves_of_wentWell (wentWell_of_readLog h.1 h.2)

/-- A log file that is read once leaves nothing to wait for, unless its output is waited for. -/
theorem suffices_readLog {path : String}
    (hlog : scenario = .reopenLog → ∃ stem, path = stem ++ Harness.rotatedSuffix)
    (records : List Log.Record) (note : Note σ)
    (h : note.deed = .readLog path ∧ .ok records = recordsOf path (note.before.tree.read path)) :
    Suffices scenario note := by
  refine ⟨serves_readLog records note h, ?_⟩
  rintro (⟨id, status, state, hdeed, -⟩ | ⟨hreopen, other, hdeed, -, hname⟩)
  · cases h.1.symm.trans hdeed
  · cases h.1.symm.trans hdeed
    obtain ⟨stem, hstem⟩ := hlog hreopen
    exact hname stem hstem

theorem read_of_records {path : String} {content : Except IoFault (List UInt8)}
    {records : List Log.Record} (h : recordsOf path content = .ok records) :
    ∃ bytes, content = .ok bytes ∧ Log.readRecords bytes = .ok records := by
  cases content with
  | error fault => cases h
  | ok bytes =>
    refine ⟨bytes, rfl, ?_⟩
    change contentRecords bytes = .ok records at h
    unfold contentRecords at h
    cases hread : Log.readRecords bytes with
    | error malformed =>
      rw [hread] at h
      cases h
    | ok seen =>
      rw [hread] at h
      cases h
      rfl

def someReads (p : List Log.Record → Prop) : Sign σ := .oneOf .readLog (.reads · p) fun _ => rfl

theorem requireMessage_eq_ok_iff {records : List Log.Record} {payload : String}
    {stream : Log.LogStream} : requireMessage records payload stream = .ok () ↔
      Log.contains records payload stream = true := by
  unfold requireMessage
  split
  · next h => exact iff_of_true rfl h
  · next h => exact iff_of_false (fun hok => nomatch hok) h

/-- A log file that must hold a message. -/
theorem accounts_verifyLog {path : String}
    (hlog : scenario = .reopenLog → ∃ stem, path = stem ++ Harness.rotatedSuffix)
    (payload : String) (stream : Log.LogStream) :
    Accounts scenario [.readLog]
      (fun _ => Shows [.reads path (Log.contains · payload stream = true)])
      (Lacks [someReads (Log.contains · payload stream = true)])
      (verifyLog path payload stream : Session σ Unit) := by
  refine (Accounts.of_check (does_readLog path) (fun records note _ => suffices_readLog hlog records note)
    (requireMessage · payload stream) ?_).mono ?_ fun _ _ h => h
  · rintro result note ⟨hdeed, rfl⟩ ⟨other, hother, records, hread, hholds⟩
    cases hdeed.symm.trans hother
    exact ⟨records, (), hread, requireMessage_eq_ok_iff.mpr hholds⟩
  · rintro seen trace ⟨note, records, rfl, ⟨hdeed, hread⟩, hholds⟩
    exact .single ⟨hdeed, records, hread.symm, requireMessage_eq_ok_iff.mp hholds⟩

theorem accounts_rename (source target : String) :
    Accounts scenario [.rename] (fun _ => Shows [.renames source target])
      (fun trace => ∀ topic : Topic, Lacks [.renames topic.path topic.rotated] trace)
      (Session.rename source target : Session σ Unit) := by
  have hdoes := does_changeTree (σ := σ) (.rename source target) source
    (fun tree => tree.rename source target)
  refine (Accounts.of_does hdoes ?_).mono ?_ ?_
  · rintro value note hkind ⟨hdeed, hrenamed⟩
    refine suffices_of_wentWell ?_ (hkind ▸ nofun) (hkind ▸ nofun)
    unfold Note.WentWell
    rw [hdeed]
    exact hrenamed.mp rfl
  · rintro value trace ⟨note, rfl, hdeed, hrenamed⟩
    exact .single ⟨hdeed, hrenamed.mp rfl⟩
  · rintro trace - ⟨note, error, rfl, hdeed, hrenamed⟩ topic hseen
    obtain ⟨other, hother, hdeed', hdone⟩ := hseen.exists_mem
    rw [List.mem_singleton.mp hother] at hdeed' hdone
    cases hdeed.symm.trans hdeed'
    cases hrenamed.mpr hdone

theorem Lacks.imp {sign sign' : Sign σ} {trace : List (Note σ)} (h : Lacks [sign] trace)
    (hsign : ∀ note, sign'.shownBy note → sign.shownBy note) : Lacks [sign'] trace := fun hseen =>
  h (hseen.head_mono hsign)

def someFind : Sign σ := .oneOf .look .finds fun _ => rfl

/-- A path that must lead to something. -/
theorem accounts_find (path message : String) :
    Accounts scenario [.look] (fun _ => Shows [.finds path]) (Lacks [someFind])
      (Session.pathExists path >>= fun present => Session.require present message :
        Session σ Unit) := by
  have hdoes : Does .look _ (Session.pathExists path : Session σ Bool) :=
    does_inspect (.look path) fun tree => hostResult path (tree.exists? path)
  have hresult : ∀ {seen : Except IoFault Bool} {found : Bool},
      .ok found = hostResult path seen → seen = .ok found := by
    rintro (fault | seen) found hfound
    · cases hfound
    · cases hfound
      rfl
  have hstep := bind_require (σ := σ) (Session.pathExists path) (fun present => present)
    fun _ => message
  rw [hstep]
  refine (Accounts.of_check hdoes ?_ (fun present => if present then .ok () else
    .error (.assertion message)) ?_).mono ?_ fun _ _ h => h
  · rintro found note hkind ⟨hdeed, hfound⟩
    refine suffices_of_wentWell ?_ (hkind ▸ nofun) (hkind ▸ nofun)
    unfold Note.WentWell
    rw [hdeed]
    exact ⟨found, hresult hfound⟩
  · rintro result note ⟨hdeed, rfl⟩ ⟨other, hother, hfound⟩
    cases hdeed.symm.trans hother
    rw [hfound]
    exact ⟨true, (), rfl, rfl⟩
  · rintro seen trace ⟨note, found, rfl, ⟨hdeed, hfound⟩, hpresent⟩
    cases found with
    | true => exact .single ⟨hdeed, hresult hfound⟩
    | false => cases hpresent

end

namespace Harness

variable {h : Harness σ} {scenario : Scenario}

/-- A wait for output ends with some in the log file, or there was none. -/
theorem accounts_waitForLog (path : String) :
    Accounts scenario [.readLog]
      (fun _ trace => Shows [.reads path (· ≠ [])] trace ∧ OnlyReads path trace)
      (fun trace => OnlyReads path trace ∧ Lacks [.reads path (· ≠ [])] trace)
      (h.waitForLog path) := by
  refine (Accounts.waitFor (does_readLog path) serves_readLog (some (.inr path)) ?_ _ _ _ ?_
    _ _).mono ?_ ?_
  · rintro records note ⟨hdeed, -⟩
    rw [hdeed]
    rfl
  · rintro records note ⟨hdeed, hread⟩ haccept
      (⟨id, status, state, hdeed', -⟩ | ⟨-, other, hdeed', hempty, -⟩)
    · cases hdeed.symm.trans hdeed'
    · cases hdeed.symm.trans hdeed'
      cases hread.trans hempty
      cases haccept
  · rintro records trace ⟨before, last, rfl, ⟨hdeed, hread⟩, haccept, hbefore⟩
    have hlast : (Sign.reads path (· ≠ [])).shownBy last := by
      refine ⟨hdeed, records, hread.symm, ?_⟩
      rintro rfl
      cases haccept
    refine ⟨(Shows.single hlast).behind before, fun note hnote => ?_⟩
    rcases List.mem_append.mp hnote with hmem | hmem
    · obtain ⟨other, ⟨hother, -⟩, -⟩ := hbefore note hmem
      exact hother
    · rw [List.mem_singleton.mp hmem]
      exact hdeed
  · rintro trace - hrefused
    refine ⟨fun note hnote => ?_, fun hseen => ?_⟩
    · rcases hrefused note hnote with ⟨error, hdeed, -⟩ | ⟨records, ⟨hdeed, -⟩, -⟩
      · exact hdeed
      · exact hdeed
    · obtain ⟨note, hnote, -, records, hread, hsome⟩ := hseen.exists_mem
      rcases hrefused note hnote with ⟨error, -, herror⟩ | ⟨other, ⟨-, hother⟩, hreject⟩
      · cases herror.trans hread
      · cases hother.trans hread
        cases records with
        | nil => exact hsome rfl
        | cons record records => cases hreject

/-- A hold on the number of records ends with a steady log file, or that was not so. -/
theorem accounts_verifyUnchanged {path : String}
    (hlog : scenario = .reopenLog → ∃ stem, path = stem ++ rotatedSuffix) (n : Nat) :
    Accounts scenario [.readLog]
      (fun _ trace => trace ≠ [] ∧ OnlyReads path trace ∧ ∀ note ∈ trace, Counts path n note)
      (fun trace => OnlyReads path trace ∧ ∃ note ∈ trace, ¬ Counts path n note)
      (h.verifyUnchanged path n) := by
  have hprobe := (does_readLog (σ := σ) path).lift
    fun records => (.ok records.length : Except Error Nat)
  have hcounts : ∀ {length : Nat} {result : Except Error (List Log.Record)},
      .ok length = result.bind (fun records => (.ok records.length : Except Error Nat)) →
        ∃ records, result = .ok records ∧ records.length = length := by
    rintro length (error | records) hlength
    · cases hlength
    · cases hlength
      exact ⟨records, rfl, rfl⟩
  refine ((Accounts.hold hprobe ?_ _ _ _ _ _).ignoring).mono ?_ ?_
  · rintro length note ⟨result, ⟨hdeed, rfl⟩, hlength⟩
    obtain ⟨records, hread, -⟩ := hcounts hlength
    exact suffices_readLog hlog records note ⟨hdeed, hread.symm⟩
  · rintro - trace ⟨last, hsome, hseen⟩
    refine ⟨hsome, fun note hnote => ?_, fun note hnote => ?_⟩
    · obtain ⟨length, ⟨result, ⟨hdeed, -⟩, -⟩, -⟩ := hseen note hnote
      exact hdeed
    · obtain ⟨length, ⟨result, ⟨-, rfl⟩, hlength⟩, haccept⟩ := hseen note hnote
      obtain ⟨records, hread, rfl⟩ := hcounts hlength
      exact ⟨records, hread, beq_iff_eq.mp haccept⟩
  · rintro trace - ⟨htold, note, hnote, hrefused⟩
    refine ⟨fun other hother => ?_, note, hnote, ?_⟩
    · obtain ⟨seen, result, ⟨hdeed, -⟩, -⟩ := htold other hother
      exact hdeed
    · rintro ⟨records, hread, rfl⟩
      rcases hrefused with ⟨error, result, ⟨-, rfl⟩, herror⟩ |
        ⟨length, ⟨result, ⟨-, rfl⟩, hlength⟩, hreject⟩
      · rw [hread] at herror
        cases herror
      · rw [hread] at hlength
        cases hlength
        simp at hreject

/-- The number of records that a log file holds at first is what it keeps to. -/
theorem accounts_keepsLength {path : String}
    (hlog : scenario = .reopenLog → ∃ stem, path = stem ++ rotatedSuffix) :
    Accounts scenario ([.readLog] ++ [.readLog])
      (fun _ trace => OnlyReads path trace ∧ Settles path [.reads path fun _ => True] trace)
      (fun trace => OnlyReads path trace ∧ ¬ Settles path [.reads path fun _ => True] trace)
      (Session.readLog path >>= fun before => h.verifyUnchanged path before.length) := by
  have hone : ∀ {note : Note σ} {more : List (Note σ)}, note.deed = .readLog path →
      OnlyReads path more → OnlyReads path ([note] ++ more) := fun hdeed hmore =>
    List.forall_mem_cons.mpr ⟨hdeed, hmore⟩
  refine Accounts.bind (Accounts.of_does (does_readLog path) fun records note _ =>
    suffices_readLog hlog records note)
    (fun records => accounts_verifyUnchanged hlog records.length) ?_ ?_ ?_
  · rintro records - trace more ⟨note, rfl, hdeed, hread⟩ ⟨-, honly, hcounts⟩
    have hfirst : (Sign.reads path fun _ => True).shownBy note :=
      ⟨hdeed, records, hread.symm, trivial⟩
    refine ⟨hone hdeed honly, (Shows.single hfirst).before more, records.length, ?_⟩
    intro other hother _
    rcases List.mem_cons.mp hother with rfl | hmem
    · exact ⟨records, hread.symm, rfl⟩
    · exact hcounts other hmem
  · rintro trace - ⟨note, error, rfl, hdeed, hread⟩
    refine ⟨List.forall_mem_singleton.mpr hdeed, ?_⟩
    rintro ⟨hseen, -⟩
    obtain ⟨other, hother, -, records, hrecords, -⟩ := hseen.exists_mem
    rw [List.mem_singleton.mp hother] at hrecords
    cases hread.trans hrecords
  · rintro records trace more - ⟨note, rfl, hdeed, hread⟩ ⟨honly, other, hother, hnot⟩
    refine ⟨hone hdeed honly, ?_⟩
    rintro ⟨-, n, hcounts⟩
    -- The first read fixes the number, which the hold then finds broken.
    obtain ⟨seen, hseen, rfl⟩ := hcounts note List.mem_cons_self hdeed
    cases hread.trans hseen
    exact hnot (hcounts other (List.mem_cons_of_mem _ hother) (honly other hother))

def rotationSigns (id : ContainerId) (path : String) : List (Sign σ) := [
  .renames path (path ++ rotatedSuffix), .reopens id, .finds path, .reads path (· ≠ []),
  .reads (path ++ rotatedSuffix) fun _ => True]

/-- Of a log file and the one that it was renamed to, only the first one has such another one. -/
theorem eq_of_rotated {path other : String} (h : other = path ∨ other = path ++ rotatedSuffix)
    (h' : other ++ rotatedSuffix = path ∨ other ++ rotatedSuffix = path ++ rotatedSuffix) :
    other = path := by
  rcases h with rfl | rfl
  · rfl
  · have hlength : rotatedSuffix.length = 4 := rfl
    rcases h' with heq | heq
    · have := congrArg String.length heq
      simp only [String.length_append] at this
      omega
    · have := congrArg String.length heq
      simp only [String.length_append] at this
      omega

theorem ne_rotated (path : String) : path ≠ path ++ rotatedSuffix := by
  intro heq
  have hlength : rotatedSuffix.length = 4 := rfl
  have := congrArg String.length heq
  simp only [String.length_append] at this
  omega

theorem avoids_rotated {path : String} {trace : List (Note σ)} (h : OnlyReads path trace) :
    Avoids (path ++ rotatedSuffix) trace := by
  intro note hnote hdeed
  have heq := (h note hnote).symm.trans hdeed
  exact ne_rotated path (Deed.readLog.inj heq)

/-- Once a log file has been put aside, output in the new one is waited for, and the old one is
watched. -/
theorem accounts_watchRotated (path : String) :
    Accounts scenario ([.readLog] ++ ([.readLog] ++ [.readLog]))
      (fun _ => Settles (path ++ rotatedSuffix)
        [.reads path (· ≠ []), .reads (path ++ rotatedSuffix) fun _ => True])
      (Unsettled fun topic => [.reads topic.path (· ≠ []), .reads topic.rotated fun _ => True])
      (h.waitForLog path >>= fun _ => Session.readLog (path ++ rotatedSuffix) >>= fun before =>
        h.verifyUnchanged (path ++ rotatedSuffix) before.length) := by
  refine Accounts.bind (accounts_waitForLog path)
    (fun _ => accounts_keepsLength fun _ => ⟨path, rfl⟩) ?_ ?_ ?_
  · rintro records - trace more ⟨hseen, honly⟩ ⟨-, hmore, hsteady⟩
    exact ⟨hseen.append hmore, hsteady.behind (avoids_rotated honly)⟩
  · rintro trace - ⟨honly, hlacks⟩ topic ⟨hseen, -⟩
    obtain ⟨note, hnote, hshown⟩ := hseen.exists_mem
    cases (honly note hnote).symm.trans hshown.1
    exact hlacks (.of_mem hnote hshown)
  · rintro records trace more - ⟨-, honly⟩ ⟨honly', hnot⟩ topic ⟨hseen, hsteady⟩
    -- Nothing but the two files is read, so the topic is this log file.
    have hread : ∀ note ∈ trace ++ more, note.deed = .readLog path ∨
        note.deed = .readLog (path ++ rotatedSuffix) := by
      intro note hnote
      rcases List.mem_append.mp hnote with hmem | hmem
      · exact .inl (honly note hmem)
      · exact .inr (honly' note hmem)
    have htopic : topic.path = path := by
      obtain ⟨note, hnote, hdeed, -⟩ := hseen.exists_mem
      obtain ⟨last, hlast, hdeed', -⟩ := hseen.tail.exists_mem
      refine eq_of_rotated ?_ ?_
      · simpa only [hdeed, Deed.readLog.injEq] using hread note hnote
      · simpa only [hdeed', Topic.rotated, Deed.readLog.injEq] using hread last hlast
    have hrotated : topic.rotated = path ++ rotatedSuffix := congrArg (· ++ rotatedSuffix) htopic
    simp only [hrotated] at hseen hsteady
    refine hnot ⟨hseen.tail.of_append_left fun note hnote hshown => ?_, hsteady.of_append_right⟩
    exact avoids_rotated honly note hnote hshown.1

def rotationKinds : List Deed.Kind :=
  [Deed.Kind.readLog] ++ ([Deed.Kind.rename] ++ ([Deed.Kind.call .reopenContainerLog] ++
    ([Deed.Kind.look] ++ ([Deed.Kind.readLog] ++ ([Deed.Kind.readLog] ++ [Deed.Kind.readLog])))))

/-- A rotation, with the check that the new log file is there as a step of its own. -/
theorem checkRotation_eq (id : ContainerId) (path : String) :
    h.checkRotation id path = (h.waitForLog path >>= fun _ =>
      Session.rename path (path ++ rotatedSuffix) >>= fun _ => h.reopenLog id >>= fun _ =>
        (Session.pathExists path >>= fun present => Session.require present
          "new container log file should be created") >>= fun _ =>
            h.waitForLog path >>= fun _ => Session.readLog (path ++ rotatedSuffix) >>= fun before =>
              h.verifyUnchanged (path ++ rotatedSuffix) before.length) := by
  simp only [bind_assoc_run]
  rfl

theorem accounts_checkRotation (id : ContainerId) (path : String) :
    Accounts scenario rotationKinds
      (fun _ => Settles (path ++ rotatedSuffix) (.reads path (· ≠ []) :: rotationSigns id path))
      (Unsettled fun topic => rotationSigns topic.id topic.path) (h.checkRotation id path) := by
  have hwatched := fun _ : Unit => @accounts_watchRotated σ h scenario path
  have hfound := fun _ : Unit => Accounts.proceeding
    ((accounts_find path "new container log file should be created").mono (fun _ _ h => h)
      fun _ _ hlacks (topic : Topic) => hlacks.imp fun _ hshown => ⟨topic.path, hshown⟩)
    (by decide : Deed.Kind.readLog ∉ _) (fun _ => (by decide : Deed.Kind.readLog ∉ _)) hwatched
  have hreopened := fun _ : Unit => Accounts.proceeding
    ((accounts_reopenLog (h := h) id).mono (fun _ _ h => h)
      fun _ _ hlacks (topic : Topic) => hlacks.imp fun _ hshown => ⟨topic.id, hshown⟩)
    (by decide : Deed.Kind.readLog ∉ _) (fun _ => (by decide : Deed.Kind.look ∉ _)) hfound
  have hrenamed := fun _ : List Log.Record => Accounts.proceeding
    (accounts_rename path (path ++ rotatedSuffix)) (by decide : Deed.Kind.readLog ∉ _)
    (fun _ => (by decide : Deed.Kind.call .reopenContainerLog ∉ _)) hreopened
  rw [checkRotation_eq]
  refine Accounts.following (accounts_waitForLog path)
    (outside_unsettled fun _ => (by decide : Deed.Kind.rename ∉ _)) hrenamed ?_
  rintro records - trace more ⟨hseen, honly⟩ ⟨hmore, hsteady⟩
  exact ⟨hseen.append hmore, hsteady.behind (avoids_rotated honly)⟩

/-- Does something with a container that writes a log. -/
theorem accounts_withLog (fixture : Fixture) (stem : String) (command : List String)
    {kinds : List Deed.Kind} {shown : ContainerId → String → List (Note σ) → Prop}
    {whole lacks : List (Note σ) → Prop} (houtside : Outside createKinds lacks)
    (hwhole : ∀ id path trace more, OfKinds createKinds trace →
      Shows [.creates id (LogsTo path)] trace → shown id path more → whole (trace ++ more))
    {body : ContainerId → String → Session σ Unit}
    (hbody : ∀ id path, Accounts scenario kinds (fun _ => shown id path) lacks (body id path)) :
    Accounts scenario (createKinds ++ kinds) (fun _ => whole) lacks
      (h.logConfig stem command >>= fun config =>
        Session.lift (containerLog fixture config) >>= fun path =>
          h.createContainer fixture config >>= fun id => body id path) := by
  have hconfig : Passes scenario [] (h.logConfig stem command) :=
    (Passes.uniqueName stem).bind fun _ => Passes.pure _
  have hnone : Outside [] lacks := houtside.mono (List.nil_subset _)
  have hcreate : ∀ {config path}, LogsTo path config fixture.config →
      Accounts scenario (createKinds ++ kinds) (fun _ => whole) lacks
        (h.createContainer fixture config >>= fun id => body id path) := by
    intro config path hpath
    refine Accounts.following (accounts_createContainer fixture config hpath).withKinds houtside
      (fun id => hbody id path) ?_
    exact fun id _ trace more hcreated hmore =>
      hwhole id path trace more hcreated.1 hcreated.2 hmore
  have hinside : ∀ config, Accounts scenario (createKinds ++ kinds) (fun _ => whole) lacks
      (Session.lift (containerLog fixture config) >>= fun path =>
        h.createContainer fixture config >>= fun id => body id path) := by
    intro config
    cases hpath : containerLog fixture config with
    | error error =>
      have hfails : Accounts scenario [] (fun _ => whole) lacks
          (Session.lift (.error error) : Session σ Unit) :=
        (Accounts.lift _).mono (fun _ _ hok => nomatch hok) fun trace htrace _ =>
          hnone.alone trace htrace
      exact hfails.widen (List.nil_subset _)
    | ok path => exact hcreate (logsTo_of_containerLog hpath)
  change Accounts scenario ([] ++ (createKinds ++ kinds)) _ _ _
  refine Accounts.following hconfig.withKinds hnone hinside ?_
  rintro config _ trace more ⟨hkinds, -⟩ hmore
  rw [List.eq_nil_iff_forall_not_mem.mpr fun note hnote => List.not_mem_nil (hkinds note hnote)]
  exact hmore

end Harness

end ContainerCheck.Check
