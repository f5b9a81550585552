import ContainerCheck.Proofs.AppendedLogs
import ContainerCheck.Proofs.GrowingLogs
import ContainerCheck.Proofs.Verdicts

namespace ContainerCheck

open ContainerCheck.Cri ContainerCheck.Host ContainerCheck.Log ContainerCheck.Poll

variable {σ α β : Type}

namespace Log

/-- What may be appended to a log file that keeps its number of records: nothing, or what completes
its last line. -/
def Completes (content added : List UInt8) : Prop :=
  added = [] ∨ (¬ IsWhole content ∧ 10 ∉ added.dropLast)

theorem completes_of_records {content added : List UInt8} {records records' : List Record}
    (h : readRecords content = .ok records) (h' : readRecords (content ++ added) = .ok records')
    (hlength : records'.length = records.length) : Completes content added := by
  rw [length_of_readRecords h, length_of_readRecords h', List.count_append] at hlength
  rcases List.eq_nil_or_concat' added with rfl | ⟨front, last, rfl⟩
  · exact .inl rfl
  · right
    -- The last byte makes a line, either as its line feed or as one that is not whole.
    have hlast : (front ++ [last]).count 10 +
        (if IsWhole (content ++ (front ++ [last])) then 0 else 1) = front.count 10 + 1 := by
      have hwhole : IsWhole (content ++ (front ++ [last])) ↔ last = 10 := by
        rw [← List.append_assoc]
        simp [IsWhole]
      by_cases hfeed : last = 10
      · rw [if_pos (hwhole.mpr hfeed), hfeed]
        simp
      · rw [if_neg fun h => hfeed (hwhole.mp h)]
        simp [hfeed]
    rw [List.dropLast_concat, ← List.count_eq_zero]
    by_cases hcontent : IsWhole content
    · rw [if_pos hcontent] at hlength
      omega
    · rw [if_neg hcontent] at hlength
      exact ⟨hcontent, by omega⟩

end Log

namespace Check

open ContainerCheck.Session

def ReadsAs (path : String) (content : List UInt8) (note : Note σ) : Prop :=
  note.deed = .readLog path ∧ note.before.tree.read path = .ok content

/-- The parts of a run that puts a log file aside: what is done until its container reopens its log,
until the old file is read for the first time, and until it is read for the last time. -/
structure Rotation (σ : Type) where
  id : ContainerId
  path : String
  early : List (Note σ)
  reopened : Note σ
  middle : List (Note σ)
  first : Note σ
  held : List (Note σ)
  released : List (Note σ)

namespace Rotation

def rotated (r : Rotation σ) : String := r.path ++ Harness.rotatedSuffix

def trace (r : Rotation σ) : List (Note σ) :=
  r.early ++ r.reopened :: (r.middle ++ r.first :: (r.held ++ r.released))

/-- The old log file is read at first when there is output in the new one, and through a window from
then on. In this time nothing is appended to it but what completes a line. -/
structure Settled (h : Harness σ) (r : Rotation σ) : Prop where
  renamed : Shows [.renames r.path r.rotated] r.early
  reopens : r.reopened.deed = .call (.asked (.reopenLog r.id) (.ok ()))
  output : Shows [.reads r.path (· ≠ [])] r.middle
  unread : Avoids r.rotated (r.early ++ r.middle ++ r.released)
  keeps : ∃ content, ReadsAs r.rotated content r.first ∧ ∀ note ∈ r.held, ∃ added,
    Completes content added ∧ ReadsAs r.rotated (content ++ added) note
  window : ∃ last, r.held.getLast? = some last ∧
    r.first.time + h.config.logSteadyWindow ≤ last.time

def around (r : Rotation σ) (before after : List (Note σ)) : Rotation σ :=
  { r with early := before ++ r.early, released := r.released ++ after }

theorem trace_around (r : Rotation σ) (before after : List (Note σ)) :
    (r.around before after).trace = before ++ r.trace ++ after := by
  simp [around, trace]

/-- A log file that is not read before or behind is settled all the same. -/
theorem Settled.around {h : Harness σ} {r : Rotation σ} {before after : List (Note σ)}
    (hr : r.Settled h) (hbefore : Avoids r.rotated before) (hafter : Avoids r.rotated after) :
    (r.around before after).Settled h where
  renamed := hr.renamed.behind before
  reopens := hr.reopens
  output := hr.output
  unread := by
    intro note hnote
    have hunread := hr.unread note
    simp only [Rotation.around, List.append_assoc, List.mem_append] at hnote hunread
    rcases hnote with hmem | hmem | hmem | hmem | hmem
    · exact hbefore note hmem
    · exact hunread (.inl hmem)
    · exact hunread (.inr (.inl hmem))
    · exact hunread (.inr (.inr hmem))
    · exact hafter note hmem
  keeps := hr.keeps
  window := hr.window

end Rotation

namespace Harness

variable {h : Harness σ}

/-- A hold that succeeds lasts through its window, at whose end it takes its last note. -/
theorem last_of_verifyUnchanged {path : String} {n : Nat} {w w' : World σ} {trace : List (Note σ)}
    (hok : h.verifyUnchanged path n w = (.ok (), w')) (hclock : w.clock ≤ w'.clock)
    (hnoted : w.Noted trace w') (hsome : trace ≠ []) :
    ∃ last, trace.getLast? = some last ∧ w.clock + h.config.logSteadyWindow ≤ last.time := by
  obtain ⟨count, w₁, hhold, hend⟩ := bind_run_eq_ok hok
  cases hend
  obtain ⟨⟨w₂, hprobe⟩, hwindow⟩ := probe_of_hold_ok hhold
  obtain ⟨records, w₃, hread, hend⟩ := bind_run_eq_ok hprobe
  cases hend
  have hworld : w₂.noteNow (.readLog path) = w' := congrArg Prod.snd hread
  obtain ⟨before, last, rfl⟩ := (List.eq_nil_or_concat' trace).resolve_left hsome
  refine ⟨last, List.getLast?_concat, ?_⟩
  subst hworld
  unfold World.Noted at hnoted
  rw [List.reverse_append] at hnoted
  -- The note that was taken last stands first.
  have hlast : (⟨w₂.clock, w₂.store, .readLog path⟩ : Note σ) = last :=
    List.head_eq_of_cons_eq hnoted
  rw [← hlast]
  change w.clock ≤ w₂.clock at hclock
  change h.config.logSteadyWindow ≤ w₂.clock - w.clock at hwindow
  change w.clock + h.config.logSteadyWindow ≤ w₂.clock
  omega

/-- A log file that keeps its number of records is appended to at most within a line. -/
theorem settled_of_keepsLength {path : String} {w w' : World σ} (hlog : IsLogFile path)
    (happending : w.Appending)
    (hok : (Session.readLog path >>= fun before => h.verifyUnchanged path before.length) w =
      (.ok (), w')) :
    ∃ first held content, w.Noted (first :: held) w' ∧ ReadsAs path content first ∧
      (∀ note ∈ held, ∃ added, Completes content added ∧ ReadsAs path (content ++ added) note) ∧
      ∃ last, held.getLast? = some last ∧ first.time + h.config.logSteadyWindow ≤ last.time := by
  obtain ⟨records, w₁, hfirst, hheld⟩ := bind_run_eq_ok hok
  have hworld : w.noteNow (.readLog path) = w₁ := congrArg Prod.snd hfirst
  subst hworld
  obtain ⟨content, hcontent, hrecords⟩ := read_of_records (congrArg Prod.fst hfirst)
  obtain ⟨held, hnoted, -, hsome, honly, hcounts⟩ :=
    (accounts_verifyUnchanged (by nofun) records.length :
      Accounts .createContainer _ _ _ _).of_ok hheld
  have halone := leavesAlone_verifyUnchanged (h := h) path records.length
    (w.noteNow (.readLog path)) happending
  rw [hheld] at halone
  have hclock : (w.noteNow (.readLog path)).clock ≤ w'.clock := halone.clock
  have hwindow := last_of_verifyUnchanged hheld hclock hnoted hsome
  obtain ⟨held', hnoted', hgrows⟩ := halone.noted
  obtain rfl := hnoted.unique hnoted'
  refine ⟨_, held, content, (World.Noted.noteNow w (.readLog path)).append hnoted,
    ⟨rfl, hcontent⟩, fun note hnote => ?_, hwindow⟩
  obtain ⟨added, hadded⟩ := hgrows note hnote path content hlog hcontent
  obtain ⟨records', hread, hlength⟩ := hcounts note hnote
  obtain ⟨content', hcontent', hrecords'⟩ := read_of_records hread
  cases hadded.symm.trans hcontent'
  exact ⟨added, completes_of_records hrecords hrecords' hlength, honly note hnote, hadded⟩

theorem isLogFile_joinPath (directory name : String) :
    IsLogFile (joinPath directory (name ++ ".log") ++ rotatedSuffix) := by
  unfold joinPath
  split
  · exact ⟨name, .inr rfl⟩
  · split
    · exact ⟨name, .inr rfl⟩
    · split
      · exact ⟨directory ++ name, .inr (by simp only [String.append_assoc])⟩
      · exact ⟨directory ++ "/" ++ name, .inr (by simp only [String.append_assoc])⟩

section

variable (hclient : h.client.AppendsToLogs)
include hclient

/-- Until the old log file is read there is output in the new one. -/
theorem parts_of_reopening {id : ContainerId} {path : String} {next : Session σ Unit}
    {w w' : World σ} (happending : w.Appending)
    (hok : (h.reopenLog id >>= fun _ =>
      (Session.pathExists path >>= fun present => Session.require present
        "new container log file should be created") >>= fun _ =>
          h.waitForLog path >>= fun _ => next) w = (.ok (), w')) :
    ∃ reopened middle w₁, w.Noted (reopened :: middle) w₁ ∧
      reopened.deed = .call (.asked (.reopenLog id) (.ok ())) ∧
      Shows [.reads path (· ≠ [])] middle ∧ Avoids (path ++ rotatedSuffix) middle ∧
      w₁.Appending ∧ next w₁ = (.ok (), w') := by
  have hR := conducts_keepsAppending hclient
  obtain ⟨⟨⟩, w₁, hreopened, hok⟩ := bind_run_eq_ok hok
  obtain ⟨⟨⟩, w₂, hfound, hok⟩ := bind_run_eq_ok hok
  obtain ⟨records, w₃, hwaited, hok⟩ := bind_run_eq_ok hok
  obtain ⟨reopened, hnoted₁, hdeed⟩ := noted_of_call_ok hreopened
  obtain ⟨looked, hnoted₂, hkinds, -⟩ :=
    (accounts_find path _ : Accounts .reopenLog _ _ _ _).of_ok hfound
  obtain ⟨waited, hnoted₃, -, hseen, honly⟩ :=
    (accounts_waitForLog path : Accounts .reopenLog _ _ _ _).of_ok hwaited
  have happending₁ := appending_of_ok (obeys_reopenLog hR id) hreopened happending
  have hfind : Obeys KeepsAppending (Session.pathExists path >>= fun present =>
      Session.require present "new container log file should be created" : Session σ Unit) :=
    Obeys.bind hR.toComposes (obeys_pathExists hR path) fun _ => Obeys.require hR.toComposes _ _
  have happending₂ := appending_of_ok hfind hfound happending₁
  have happending₃ := appending_of_ok (obeys_waitForLog hR path) hwaited happending₂
  refine ⟨reopened, looked ++ waited, w₃, hnoted₁.append (hnoted₂.append hnoted₃), hdeed,
    hseen.behind looked, ?_, happending₃, hok⟩
  exact (avoids_of_kinds hkinds (by decide : Deed.Kind.readLog ∉ _) _).append
    (avoids_rotated honly)

theorem rotation_of_checkRotation {id : ContainerId} {path : String} {w w' : World σ}
    (happending : w.Appending) (hlog : IsLogFile (path ++ rotatedSuffix))
    (hok : h.checkRotation id path w = (.ok (), w')) :
    ∃ r : Rotation σ, w.Noted r.trace w' ∧ r.Settled h := by
  have hR := conducts_keepsAppending hclient
  rw [checkRotation_eq] at hok
  obtain ⟨records, w₁, hwaited, hok⟩ := bind_run_eq_ok hok
  obtain ⟨⟨⟩, w₂, hrenamed, hok⟩ := bind_run_eq_ok hok
  obtain ⟨waited, hnoted₁, -, -, honly⟩ :=
    (accounts_waitForLog path : Accounts .reopenLog _ _ _ _).of_ok hwaited
  obtain ⟨moved, hnoted₂, hkinds, hmoved⟩ :=
    (accounts_rename path (path ++ rotatedSuffix) : Accounts .reopenLog _ _ _ _).of_ok hrenamed
  have happending₁ := appending_of_ok (obeys_waitForLog hR path) hwaited happending
  have happending₂ := appending_of_ok (keepsAppending_rename _ _) hrenamed happending₁
  obtain ⟨reopened, middle, w₃, hnoted₃, hreopens, houtput, hunread, happending₃, hok⟩ :=
    parts_of_reopening hclient happending₂ hok
  obtain ⟨first, held, content, hnoted₄, hfirst, hheld, hwindow⟩ :=
    settled_of_keepsLength hlog happending₃ hok
  refine ⟨⟨id, path, waited ++ moved, reopened, middle, first, held, []⟩, ?_, ?_⟩
  · have hnoted := (hnoted₁.append hnoted₂).append (hnoted₃.append hnoted₄)
    simpa [Rotation.trace] using hnoted
  · have hmovedUnread : Avoids (path ++ rotatedSuffix) moved :=
      avoids_of_kinds hkinds (by decide : Deed.Kind.readLog ∉ _) _
    have hall : Avoids (path ++ rotatedSuffix) (waited ++ moved ++ middle ++ []) := by
      rw [List.append_nil]
      exact ((avoids_rotated honly).append hmovedUnread).append hunread
    exact ⟨hmoved.behind waited, hreopens, houtput, hall, ⟨content, hfirst, hheld⟩, hwindow⟩

theorem rotation_of_runIn {fixture : Fixture} {w w' : World σ} (happending : w.Appending)
    (hok : h.runIn fixture .reopenLog w = (.ok (), w')) :
    ∃ r : Rotation σ, w.Noted r.trace w' ∧ r.Settled h := by
  have hR := conducts_keepsAppending hclient
  obtain ⟨config, w₁, hconfig, hok₁⟩ := bind_run_eq_ok hok
  obtain ⟨path, w₂, hpath, hok₂⟩ := bind_run_eq_ok hok₁
  obtain ⟨id, w₃, hcreated, hok₃⟩ := bind_run_eq_ok hok₂
  obtain ⟨⟨⟩, w₄, hstarted, hok₄⟩ := bind_run_eq_ok hok₃
  clear hok hok₁ hok₂ hok₃
  -- The configuration takes but a fresh name, and the path of the log nothing.
  cases hconfig
  obtain ⟨hlogPath, rfl⟩ := lift_run_eq_ok hpath
  have hlog : IsLogFile (path ++ rotatedSuffix) := by
    obtain ⟨directory, name, -, hname, rfl⟩ := logsTo_of_containerLog hlogPath
    cases hname
    exact isLogFile_joinPath directory _
  obtain ⟨created, hnoted₁, hkinds₁, -⟩ := (accounts_createContainer fixture _
    (logsTo_of_containerLog hlogPath) : Accounts .reopenLog _ _ _ _).of_ok hcreated
  obtain ⟨started, hnoted₂, hkinds₂, -⟩ :=
    (accounts_startContainer id : Accounts .reopenLog _ _ _ _).of_ok hstarted
  have happending₁ := appending_of_ok (obeys_createContainer hR fixture _) hcreated happending
  have happending₂ := appending_of_ok (obeys_startContainer hR id) hstarted happending₁
  obtain ⟨r, hnoted₃, hsettled⟩ := rotation_of_checkRotation hclient happending₂ hlog hok₄
  refine ⟨r.around (created ++ started) [], ?_, hsettled.around ?_ (by simp [Avoids])⟩
  · rw [Rotation.trace_around, List.append_nil]
    exact (hnoted₁.append hnoted₂).append hnoted₃
  · exact (avoids_of_kinds hkinds₁ (by decide : Deed.Kind.readLog ∉ _) _).append
      (avoids_of_kinds hkinds₂ (by decide : Deed.Kind.readLog ∉ _) _)

end

/-- A broken rotation cannot pass. -/
theorem reopenLog_settled (h : Harness σ) (hclient : h.client.AppendsToLogs) {w : World σ}
    (happending : w.Appending) (hok : (h.run .reopenLog w).1 = .ok ()) :
    ∃ r : Rotation σ, w.Noted r.trace (h.run .reopenLog w).2 ∧ r.Settled h := by
  obtain ⟨acquired, hnoted₁, haccount⟩ := passes_runSandboxFor (h := h) .reopenLog w
  have hkept := keepsAppending_runSandboxWithLogs hclient w happending
  unfold run at hok ⊢
  rw [withFixture_run] at hok ⊢
  change World.Appending (h.runSandboxFor .reopenLog w).2 at hkept
  rcases heq : h.runSandboxFor .reopenLog w with ⟨result, w₁⟩
  rw [heq] at hok hnoted₁ haccount hkept
  cases result with
  | error error => cases hok
  | ok fixture =>
    dsimp only at hok ⊢
    rcases hin : h.runIn fixture .reopenLog w₁ with ⟨result, w₂⟩
    rw [hin] at hok
    cases hok
    obtain ⟨r, hnoted₂, hsettled⟩ := rotation_of_runIn hclient hkept hin
    obtain ⟨released, hnoted₃, hkinds, -⟩ := @noted_release σ h .reopenLog fixture w₂
    refine ⟨r.around acquired released, ?_, hsettled.around ?_ ?_⟩
    · rw [Rotation.trace_around]
      exact (hnoted₁.append hnoted₂).append hnoted₃
    · exact avoids_of_kinds haccount.ofKinds (by decide : Deed.Kind.readLog ∉ _) _
    · exact avoids_of_kinds hkinds (by decide : Deed.Kind.readLog ∉ _) _

end Harness

end Check

def Host.Tree.extend (place : Place) (bytes : List UInt8) (tree : Tree) : Tree :=
  match tree.find? place with
  | some (.file content) => tree.put place (.file (content ++ bytes))
  | none => tree.put place (.file bytes)
  | _ => tree

theorem Host.Tree.grows_extend (place : Place) (bytes : List UInt8) (tree : Tree) :
    tree.Grows (tree.extend place bytes) := by
  unfold extend
  split
  · next content hfile => exact grows_put_file hfile bytes
  · next hfree => exact grows_put_free hfree _
  · exact .refl tree

namespace Store

def extend (place : Place) (bytes : List UInt8) (store : Store Unit) : Store Unit :=
  { store with tree := store.tree.extend place bytes }

theorem logsGrow_extend (place : Place) (bytes : List UInt8) (store : Store Unit) :
    store.tree.LogsGrow (store.extend place bytes).tree :=
  (Tree.grows_extend place bytes store.tree).logsGrow

end Store

def podLog : Place :=
  ["podLogTestZq0000", "container-reopen-log-test-00000000-0000-4000-8000-000000000003.log"]

def podLogRotated : Place :=
  ["podLogTestZq0000", "container-reopen-log-test-00000000-0000-4000-8000-000000000003.log.new"]

/-- A client that goes on in a new log file after half a second only. Until then it has written one
more line and a part of another one to the old one, and a second later it completes that. -/
def Cri.Client.laggard : Client Unit where
  answer request now store :=
    match request with
    | .runSandbox _ => { value := .ok ⟨"sandbox"⟩, store := store }
    | .imageStatus _ => { value := .ok (some {}), store := store }
    | .createContainer .. => { value := .ok ⟨"container"⟩, store := store }
    | .startContainer _ => { value := .ok (), store := store.extend podLog helloLog }
    | .reopenLog _ =>
      { value := .ok ()
        store := store.extend podLog []
        events := [⟨now + 500000000, Store.extend podLog helloLog⟩,
          ⟨now + 500000000, Store.extend podLogRotated (helloLog ++ helloLog.take 32)⟩,
          ⟨now + 1500000000, Store.extend podLogRotated (helloLog.drop 32)⟩] }
    | _ => { value := .error "unavailable", store := store }
  stop _ _ _ store := { value := none, store := store }

theorem Cri.Client.appendsToLogs_laggard : Client.laggard.AppendsToLogs where
  answer request now store := by
    cases request with
    | startContainer id => exact ⟨store.logsGrow_extend _ _, nofun⟩
    | reopenLog id =>
      refine ⟨store.logsGrow_extend _ _, fun event hevent before => ?_⟩
      simp only [laggard, List.mem_cons, List.not_mem_nil, or_false] at hevent
      rcases hevent with rfl | rfl | rfl <;> exact before.logsGrow_extend _ _
    | _ => exact ⟨.refl _, nofun⟩
  stop _ _ _ _ := ⟨.refl _, nofun⟩

/-- What an old log file holds when it is looked whether there is a new one, which is as soon as the
log has been reopened, and whenever it is read. -/
def oldLog? (path : String) (note : Note Unit) : Option (List UInt8) :=
  match note.deed with
  | .look _ => (note.before.tree.read path).toOption
  | .readLog other => if other = path then (note.before.tree.read path).toOption else none
  | _ => none

namespace Check.Harness

def laggard : Harness Unit := ⟨.laggard, { logSteadyWindowMs := 1000 }⟩

/-- The run succeeds, and this is what the old log file holds at its times. -/
theorem run_laggard :
    (laggard.run .reopenLog (World.start ⟨[], []⟩ ())).1.toOption = some () ∧
      (laggard.run .reopenLog (World.start ⟨[], []⟩ ())).2.notes.reverse.filterMap
        (oldLog? (pathOf podLogRotated)) =
        [helloLog, helloLog ++ helloLog ++ helloLog.take 32,
          helloLog ++ helloLog ++ helloLog.take 32, helloLog ++ helloLog ++ helloLog] := by
  decide +kernel

theorem reopenLog_settled_laggard :
    let w := World.start ⟨[], []⟩ ()
    laggard.client.AppendsToLogs ∧ w.Appending ∧ (laggard.run .reopenLog w).1 = .ok () ∧
      ∃ r : Rotation Unit, w.Noted r.trace (laggard.run .reopenLog w).2 ∧ r.Settled laggard := by
  intro w
  have hclient : laggard.client.AppendsToLogs := Client.appendsToLogs_laggard
  have happending : w.Appending := nofun
  have hok : (laggard.run .reopenLog w).1 = .ok () := eq_ok_of_toOption run_laggard.1
  exact ⟨hclient, happending, hok, laggard.reopenLog_settled hclient happending hok⟩

/-- What is written before the old log file is read for the first time passes, and so does what
completes a line while it is watched. -/
theorem reopenLog_unsettled :
    let w := World.start ⟨[], []⟩ ()
    laggard.client.AppendsToLogs ∧ laggard.config.validate = .ok () ∧
      (laggard.run .reopenLog w).1 = .ok () ∧
      ∃ first last, helloLog ≠ first ∧ first ≠ last ∧
        (laggard.run .reopenLog w).2.notes.reverse.filterMap (oldLog? (pathOf podLogRotated)) =
          [helloLog, first, first, last] := by
  refine ⟨Client.appendsToLogs_laggard, rfl, eq_ok_of_toOption run_laggard.1, _, _, ?_, ?_,
    run_laggard.2⟩
  · decide +kernel
  · decide +kernel

end Check.Harness

end ContainerCheck
