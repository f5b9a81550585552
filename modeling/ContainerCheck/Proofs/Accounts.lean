import ContainerCheck.Proofs.SandboxCalls
import ContainerCheck.Proofs.Signs

namespace ContainerCheck

open ContainerCheck.Cri ContainerCheck.Host ContainerCheck.Poll ContainerCheck.Session

/-- What a deed asks about, of those that are repeated until they find what is waited for. -/
def Deed.subject? : Deed → Option (ContainerId ⊕ String)
  | .call (.asked (.containerStatus id) _) => some (.inl id)
  | .readLog path => some (.inr path)
  | _ => none

namespace Check

variable {σ α β : Type}

/-- Whether a scenario needs a deed to go well. It heeds neither the release of its sandbox nor the
command that must fail. -/
def Scenario.heeds : Scenario → Deed → Bool
  | _, .call (.asked (.stopSandbox _) _) => false
  | _, .call (.asked (.removeSandbox _) _) => false
  | .execSyncWrongCommand, .call (.asked (.execSync ..) _) => false
  | _, _ => true

def Serves (scenario : Scenario) (note : Note σ) : Prop :=
  scenario.heeds note.deed = true → note.WentWell

theorem serves_of_wentWell {scenario : Scenario} {note : Note σ} (h : note.WentWell) :
    Serves scenario note := fun _ => h

namespace Scenario

def awaited : Scenario → Option ContainerState
  | .createContainer => some .created
  | .startContainer | .startWithVolume | .startWithLinkedVolume | .startExtended => some .running
  | .stopContainer | .startWithLog => some .exited
  | _ => none

/-- Whether a scenario must go on waiting after a deed: a container is not in the awaited state yet,
or there is no output yet in a log file that has not been put aside. -/
def StillWaits (scenario : Scenario) (note : Note σ) : Prop :=
  (∃ id status state, note.deed = .call (.asked (.containerStatus id) (.ok status)) ∧
    scenario.awaited = some state ∧ status.state ≠ state) ∨
  scenario = .reopenLog ∧ ∃ path, note.deed = .readLog path ∧
    recordsOf path (note.before.tree.read path) = .ok [] ∧
      ∀ stem, path ≠ stem ++ Harness.rotatedSuffix

/-- No wait is given up: a deed after which a scenario must go on waiting is repeated until one
finds what is waited for. -/
def EndsWaits (scenario : Scenario) : List (Note σ) → Prop
  | [] => True
  | note :: rest => (scenario.StillWaits note → ∃ later ∈ rest,
      later.deed.subject? = note.deed.subject? ∧ ¬ scenario.StillWaits later) ∧
    scenario.EndsWaits rest

variable {scenario : Scenario} {trace more : List (Note σ)}

theorem EndsWaits.append (h : scenario.EndsWaits trace) (h' : scenario.EndsWaits more) :
    scenario.EndsWaits (trace ++ more) := by
  induction trace with
  | nil => exact h'
  | cons note rest ih =>
    obtain ⟨hnote, hrest⟩ := h
    refine ⟨fun hwaits => ?_, ih hrest⟩
    obtain ⟨later, hmem, hlater⟩ := hnote hwaits
    exact ⟨later, List.mem_append_left more hmem, hlater⟩

theorem endsWaits_of_forall (h : ∀ note ∈ trace, ¬ scenario.StillWaits note) :
    scenario.EndsWaits trace := by
  induction trace with
  | nil => trivial
  | cons note rest ih =>
    obtain ⟨hnote, hrest⟩ := List.forall_mem_cons.mp h
    exact ⟨fun hwaits => absurd hwaits hnote, ih hrest⟩

/-- A wait is over with its last deed. -/
theorem endsWaits_of_last {last : Note σ} (hlast : ¬ scenario.StillWaits last)
    (hsame : ∀ note ∈ trace, last.deed.subject? = note.deed.subject?) :
    scenario.EndsWaits (trace ++ [last]) := by
  induction trace with
  | nil => exact endsWaits_of_forall (List.forall_mem_singleton.mpr hlast)
  | cons note rest ih =>
    obtain ⟨hnote, hrest⟩ := List.forall_mem_cons.mp hsame
    exact ⟨fun _ => ⟨last, List.mem_concat_self, hnote, hlast⟩, ih hrest⟩

/-- Only a status and a look into a log file can leave a scenario waiting. -/
theorem not_stillWaits {note : Note σ}
    (hstatus : note.deed.kind = .call .containerStatus → scenario.awaited = none)
    (hlog : note.deed.kind ≠ .readLog) : ¬ scenario.StillWaits note := by
  rintro (⟨id, status, state, hdeed, hawaited, -⟩ | ⟨-, path, hdeed, -⟩)
  · cases hawaited.symm.trans (hstatus (congrArg Deed.kind hdeed))
  · exact hlog (congrArg Deed.kind hdeed)

theorem endsWaits_of_kinds {kinds : List Deed.Kind} (h : OfKinds kinds trace)
    (hstatus : .call .containerStatus ∉ kinds) (hlog : .readLog ∉ kinds) :
    scenario.EndsWaits trace :=
  endsWaits_of_forall fun note hnote => not_stillWaits
    (fun heq => absurd (heq ▸ h note hnote) hstatus) fun heq => hlog (heq ▸ h note hnote)

end Scenario

structure Suffices (scenario : Scenario) (note : Note σ) : Prop where
  serves : Serves scenario note
  waitsNoMore : ¬ scenario.StillWaits note

theorem suffices_of_wentWell {scenario : Scenario} {note : Note σ} (h : note.WentWell)
    (hstatus : note.deed.kind = .call .containerStatus → scenario.awaited = none)
    (hlog : note.deed.kind ≠ .readLog) : Suffices scenario note :=
  ⟨serves_of_wentWell h, Scenario.not_stillWaits hstatus hlog⟩

/-- What the notes of a step say, by its result. -/
structure Account (scenario : Scenario) (kinds : List Deed.Kind)
    (shown : α → List (Note σ) → Prop) (lacks : List (Note σ) → Prop) (result : Except Error α)
    (trace : List (Note σ)) : Prop where
  ofKinds : OfKinds kinds trace
  serves : ∀ value, result = .ok value → ∀ note ∈ trace, Serves scenario note
  endsWaits : ∀ value, result = .ok value → scenario.EndsWaits trace
  shows : ∀ value, result = .ok value → shown value trace
  lacking : ∀ error, result = .error error → Concludes (some error) → lacks trace

namespace Account

variable {scenario : Scenario} {kinds : List Deed.Kind} {shown : α → List (Note σ) → Prop}
  {lacks : List (Note σ) → Prop} {trace : List (Note σ)}

theorem of_ok {value : α} (hkinds : OfKinds kinds trace)
    (hserves : ∀ note ∈ trace, Serves scenario note) (hends : scenario.EndsWaits trace)
    (hshown : shown value trace) : Account scenario kinds shown lacks (.ok value) trace where
  ofKinds := hkinds
  serves _ _ := hserves
  endsWaits _ _ := hends
  shows _ hok := Except.ok.inj hok ▸ hshown
  lacking := nofun

theorem of_error {error : Error} (hkinds : OfKinds kinds trace)
    (hlacks : Concludes (some error) → lacks trace) :
    Account scenario kinds shown lacks (.error error) trace where
  ofKinds := hkinds
  serves := nofun
  endsWaits := nofun
  shows := nofun
  lacking _ herror := Except.error.inj herror ▸ hlacks

end Account

def Accounts (scenario : Scenario) (kinds : List Deed.Kind) (shown : α → List (Note σ) → Prop)
    (lacks : List (Note σ) → Prop) (step : Session σ α) : Prop :=
  ∀ w, ∃ trace, w.Noted trace (step w).2 ∧ Account scenario kinds shown lacks (step w).1 trace

def Lacks (signs : List (Sign σ)) (trace : List (Note σ)) : Prop := ¬ Shows signs trace

/-- Nothing of what is lacking is in deeds of some kinds, nor do they add to it before others. -/
structure Outside (kinds : List Deed.Kind) (lacks : List (Note σ) → Prop) : Prop where
  alone (trace : List (Note σ)) : OfKinds kinds trace → lacks trace
  before (trace more : List (Note σ)) : OfKinds kinds trace → lacks more → lacks (trace ++ more)

theorem Outside.mono {kinds kinds' : List Deed.Kind} {lacks : List (Note σ) → Prop}
    (h : Outside kinds' lacks) (hkinds : kinds ⊆ kinds') : Outside kinds lacks where
  alone trace htrace := h.alone trace fun note hnote => hkinds (htrace note hnote)
  before trace more htrace := h.before trace more fun note hnote => hkinds (htrace note hnote)

theorem outside_lacks {kinds : List Deed.Kind} {sign : Sign σ} {signs : List (Sign σ)}
    (hkind : sign.kind ∉ kinds) : Outside kinds (Lacks (sign :: signs)) where
  alone := by
    intro trace htrace hseen
    obtain ⟨note, hnote, hsign⟩ := hseen.exists_mem
    exact Sign.not_shownBy hkind htrace note hnote hsign
  before := by
    intro trace more htrace hmore hseen
    exact hmore (hseen.of_append_left (Sign.not_shownBy hkind htrace))

def Anything (_ : List (Note σ)) : Prop := True

abbrev Passes (scenario : Scenario) (kinds : List Deed.Kind) (step : Session σ α) : Prop :=
  Accounts scenario kinds (fun _ _ => True) Anything step

namespace Accounts

variable {scenario : Scenario} {kinds kinds' : List Deed.Kind}
  {shown shown' : α → List (Note σ) → Prop} {lacks lacks' : List (Note σ) → Prop}

theorem mono {step : Session σ α} (h : Accounts scenario kinds shown lacks step)
    (hshown : ∀ value trace, shown value trace → shown' value trace)
    (hlacks : ∀ trace, OfKinds kinds trace → lacks trace → lacks' trace) :
    Accounts scenario kinds shown' lacks' step := by
  intro w
  obtain ⟨trace, hnoted, hkinds, hserves, hends, hshows, hlacking⟩ := h w
  refine ⟨trace, hnoted, hkinds, hserves, hends,
    fun value hok => hshown value trace (hshows value hok), ?_⟩
  intro error herror hconcludes
  exact hlacks trace hkinds (hlacking error herror hconcludes)

theorem widen {step : Session σ α} (h : Accounts scenario kinds shown lacks step)
    (hkinds : kinds ⊆ kinds') : Accounts scenario kinds' shown lacks step := by
  intro w
  obtain ⟨trace, hnoted, haccount⟩ := h w
  exact ⟨trace, hnoted, { haccount with
    ofKinds := fun note hnote => hkinds (haccount.ofKinds note hnote) }⟩

/-- What the notes of a step show if it succeeds. -/
theorem of_ok {step : Session σ α} (h : Accounts scenario kinds shown lacks step) {w w' : World σ}
    {value : α}
    (hok : step w = (.ok value, w')) :
    ∃ trace, w.Noted trace w' ∧ OfKinds kinds trace ∧ shown value trace := by
  obtain ⟨trace, hnoted, haccount⟩ := h w
  rw [hok] at hnoted haccount
  exact ⟨trace, hnoted, haccount.ofKinds, haccount.shows value rfl⟩

theorem lift (result : Except Error α) :
    Accounts scenario [] (fun value (_ : List (Note σ)) => result = .ok value) (· = [])
      (Session.lift result : Session σ α) := by
  intro w
  exact ⟨[], .nil rfl, by simp [OfKinds], by simp, fun _ _ => trivial, fun _ hok => hok,
    fun _ _ _ => rfl⟩

theorem pure (value : α) :
    Accounts scenario [] (fun other (_ : List (Note σ)) => other = value) Anything
      (Pure.pure value : Session σ α) := by
  intro w
  exact ⟨[], .nil rfl, .of_ok (List.forall_mem_nil _) (List.forall_mem_nil _) trivial rfl⟩

/-- A step with another one behind it has an account if all that its notes lack is lacking in the
notes of both. -/
theorem bind {shown'' : β → List (Note σ) → Prop} {next' : α → β → List (Note σ) → Prop}
    {lacks'' : α → List (Note σ) → Prop} {first : Session σ α} {next : α → Session σ β}
    (hfirst : Accounts scenario kinds shown lacks first)
    (hnext : ∀ value, Accounts scenario kinds' (next' value) (lacks'' value) (next value))
    (hshown : ∀ value last trace more, shown value trace → next' value last more →
      shown'' last (trace ++ more))
    (hfails : ∀ trace, OfKinds kinds trace → lacks trace → lacks' trace)
    (hlacks : ∀ value trace more, OfKinds kinds trace → shown value trace → lacks'' value more →
      lacks' (trace ++ more)) :
    Accounts scenario (kinds ++ kinds') shown'' lacks' (first >>= next) := by
  intro w
  obtain ⟨trace, hnoted, haccount⟩ := hfirst w
  rw [bind_run]
  rcases heq : first w with ⟨result, w'⟩
  rw [heq] at hnoted haccount
  cases result with
  | error error =>
    have hkinds : OfKinds (kinds ++ kinds') trace := fun note hnote =>
      List.mem_append_left _ (haccount.ofKinds note hnote)
    refine ⟨trace, hnoted, .of_error hkinds fun hconcludes => ?_⟩
    exact hfails trace haccount.ofKinds (haccount.lacking error rfl hconcludes)
  | ok value =>
    obtain ⟨more, hmore, haccount'⟩ := hnext value w'
    have hfirstShown := haccount.shows value rfl
    refine ⟨trace ++ more, hnoted.append hmore, haccount.ofKinds.append haccount'.ofKinds,
      ?_, ?_, ?_, ?_⟩
    · intro last hok note hnote
      rcases List.mem_append.mp hnote with hmem | hmem
      · exact haccount.serves value rfl note hmem
      · exact haccount'.serves last hok note hmem
    · intro last hok
      exact (haccount.endsWaits value rfl).append (haccount'.endsWaits last hok)
    · intro last hok
      exact hshown value last trace more hfirstShown (haccount'.shows last hok)
    · intro error herror hconcludes
      exact hlacks value trace more haccount.ofKinds hfirstShown
        (haccount'.lacking error herror hconcludes)

/-- A step with another one behind it, whatever their notes lack. -/
theorem andThen {shown'' : β → List (Note σ) → Prop} {next' : α → β → List (Note σ) → Prop}
    {lacks'' : α → List (Note σ) → Prop} {first : Session σ α} {next : α → Session σ β}
    (hfirst : Accounts scenario kinds shown lacks first)
    (hnext : ∀ value, Accounts scenario kinds' (next' value) (lacks'' value) (next value))
    (hshown : ∀ value last trace more, shown value trace → next' value last more →
      shown'' last (trace ++ more)) :
    Accounts scenario (kinds ++ kinds') shown'' Anything (first >>= next) :=
  bind hfirst hnext hshown (fun _ _ _ => trivial) fun _ _ _ _ _ _ => trivial

theorem passes {step : Session σ α} (h : Accounts scenario kinds shown lacks step) :
    Passes scenario kinds step := h.mono (fun _ _ _ => trivial) fun _ _ _ => trivial

/-- What the notes of a step show beside their kinds. -/
theorem withKinds {step : Session σ α} (h : Accounts scenario kinds shown lacks step) :
    Accounts scenario kinds (fun value trace => OfKinds kinds trace ∧ shown value trace) lacks
      step := by
  intro w
  obtain ⟨trace, hnoted, haccount⟩ := h w
  exact ⟨trace, hnoted, { haccount with
    shows := fun value hok => ⟨haccount.ofKinds, haccount.shows value hok⟩ }⟩

/-- What the steps behind a step may lack is not in its own notes. -/
theorem following {shown'' : β → List (Note σ) → Prop} {next' : α → β → List (Note σ) → Prop}
    {first : Session σ α} {next : α → Session σ β}
    (hfirst : Accounts scenario kinds shown lacks first) (houtside : Outside kinds lacks')
    (hnext : ∀ value, Accounts scenario kinds' (next' value) lacks' (next value))
    (hshown : ∀ value last trace more, shown value trace → next' value last more →
      shown'' last (trace ++ more)) :
    Accounts scenario (kinds ++ kinds') shown'' lacks' (first >>= next) :=
  bind hfirst hnext hshown (fun trace htrace _ => houtside.alone trace htrace)
    fun _ trace more htrace _ => houtside.before trace more htrace

/-- What the last step of several may lack is not seen in those before it. -/
theorem concluding {shown'' : β → List (Note σ) → Prop} {next' : α → β → List (Note σ) → Prop}
    {sign : Sign σ} {signs : List (Sign σ)} {first : Session σ α} {next : α → Session σ β}
    (hfirst : Accounts scenario kinds shown lacks first) (hkind : sign.kind ∉ kinds)
    (hnext : ∀ value, Accounts scenario kinds' (next' value) (Lacks (sign :: signs)) (next value))
    (hshown : ∀ value last trace more, shown value trace → next' value last more →
      shown'' last (trace ++ more)) :
    Accounts scenario (kinds ++ kinds') shown'' (Lacks (sign :: signs)) (first >>= next) :=
  following hfirst (outside_lacks hkind) hnext hshown

theorem ensuring {step : Session σ α} (h : Accounts scenario kinds shown lacks step)
    {cleanup : World σ → World σ} (hcleanup : ∀ w, (cleanup w).notes = w.notes) :
    Accounts scenario kinds shown lacks (step.ensuring cleanup) := by
  intro w
  obtain ⟨trace, hnoted, haccount⟩ := h w
  exact ⟨trace, hnoted.sameNotes (hcleanup _), haccount⟩

theorem of_does {kind : Deed.Kind} {tells : Except Error α → Note σ → Prop} {step : Session σ α}
    (h : Does kind tells step)
    (hsuffices : ∀ value note, note.deed.kind = kind → tells (.ok value) note →
      Suffices scenario note) :
    Accounts scenario [kind]
      (fun value trace => ∃ note, trace = [note] ∧ tells (.ok value) note)
      (fun trace => ∃ note error, trace = [note] ∧ tells (.error error) note) step := by
  intro w
  obtain ⟨note, hnoted, hkind, htells⟩ := h w
  refine ⟨[note], hnoted, by simpa [OfKinds] using hkind, ?_, ?_, ?_, ?_⟩
  · intro value hok
    rw [hok] at htells
    exact List.forall_mem_singleton.mpr (hsuffices value note hkind htells).serves
  · intro value hok
    rw [hok] at htells
    exact Scenario.endsWaits_of_forall
      (List.forall_mem_singleton.mpr (hsuffices value note hkind htells).waitsNoMore)
  · intro value hok
    rw [hok] at htells
    exact ⟨note, rfl, htells⟩
  · intro error herror _
    rw [herror] at htells
    exact ⟨note, error, rfl, htells⟩

/-- A step that does one deed, of which no more is said than that it goes well. -/
theorem of_wentWell {kind : Deed.Kind} {tells : Except Error α → Note σ → Prop}
    {step : Session σ α} (h : Does kind tells step)
    (hstatus : kind = .call .containerStatus → scenario.awaited = none) (hlog : kind ≠ .readLog)
    (hwell : ∀ value note, tells (.ok value) note → note.WentWell) :
    Passes scenario [kind] step :=
  (of_does h fun value note hkind htells => suffices_of_wentWell (hwell value note htells)
    (hkind ▸ hstatus) (hkind ▸ hlog)).mono (fun _ _ _ => trivial) fun _ _ _ => trivial

/-- A step that does one deed and checks its value. If it fails, no sign is seen that only a value
which passes the check can give. -/
theorem of_check {kind : Deed.Kind} {tells : Except Error α → Note σ → Prop} {step : Session σ α}
    (h : Does kind tells step)
    (hsuffices : ∀ value note, note.deed.kind = kind → tells (.ok value) note →
      Suffices scenario note)
    (f : α → Except Error β) {sign : Sign σ}
    (hsign : ∀ result note, tells result note → sign.shownBy note →
      ∃ value seen, result = .ok value ∧ f value = .ok seen) :
    Accounts scenario [kind]
      (fun seen trace => ∃ note value, trace = [note] ∧ tells (.ok value) note ∧ f value = .ok seen)
      (Lacks [sign]) (step >>= fun value => Session.lift (f value)) := by
  refine (of_does (h.lift f) ?_).mono ?_ ?_
  · rintro seen note hkind ⟨result, htells, hresult⟩
    cases result with
    | ok value => exact hsuffices value note hkind htells
    | error error => cases hresult
  · rintro seen trace ⟨note, rfl, result, htells, hresult⟩
    cases result with
    | ok value => exact ⟨note, value, rfl, htells, hresult.symm⟩
    | error error => cases hresult
  · rintro trace - ⟨note, error, rfl, result, htells, hresult⟩ hseen
    obtain ⟨other, hother, hshown⟩ := hseen.exists_mem
    rw [List.mem_singleton.mp hother] at hshown
    obtain ⟨value, seen, rfl, hpasses⟩ := hsign result note htells hshown
    cases hresult.trans hpasses

theorem orDiscard {step : Session σ α} (h : Accounts scenario kinds shown lacks step)
    (directory : String) :
    Accounts scenario kinds shown lacks (Session.orDiscard directory step) := by
  intro w
  obtain ⟨trace, hnoted, haccount⟩ := h w
  unfold Session.orDiscard
  rcases heq : step w with ⟨result, w'⟩
  rw [heq] at hnoted haccount
  cases result with
  | ok value => exact ⟨trace, hnoted, haccount⟩
  | error error =>
    exact ⟨trace, hnoted.sameNotes (World.notes_discard w' directory), haccount⟩

/-- A step whose value is not needed. -/
theorem ignoring {step : Session σ α} (h : Accounts scenario kinds shown lacks step) :
    Accounts scenario kinds (fun _ trace => ∃ value, shown value trace) lacks
      (step >>= fun _ => Pure.pure ()) := by
  intro w
  obtain ⟨trace, hnoted, haccount⟩ := h w
  rw [bind_run]
  rcases heq : step w with ⟨result, w'⟩
  rw [heq] at hnoted haccount
  refine ⟨trace, ?_, ?_⟩
  · cases result <;> exact hnoted
  cases result with
  | ok value =>
    exact .of_ok haccount.ofKinds (haccount.serves value rfl) (haccount.endsWaits value rfl)
      ⟨value, haccount.shows value rfl⟩
  | error error => exact .of_error haccount.ofKinds (haccount.lacking error rfl)

variable {kind : Deed.Kind} {tells : Except Error α → Note σ → Prop} {probe : Session σ α}

/-- A wait that succeeds ends with a value that it accepts; one that fails has seen none. -/
theorem waitFor (hprobe : Does kind tells probe)
    (hserves : ∀ value note, tells (.ok value) note → Serves scenario note)
    (subject : Option (ContainerId ⊕ String))
    (hsubject : ∀ value note, tells (.ok value) note → note.deed.subject? = subject)
    (condition : String) (describe : α → String) (accept : α → Bool)
    (hends : ∀ value note, tells (.ok value) note → accept value = true →
      ¬ scenario.StillWaits note) (interval timeout : Nat) :
    Accounts scenario [kind]
      (fun value trace => ∃ before last, trace = before ++ [last] ∧ tells (.ok value) last ∧
        accept value = true ∧
          ∀ note ∈ before, ∃ other, tells (.ok other) note ∧ accept other = false)
      (fun trace => ∀ note ∈ trace, Refused tells accept note)
      (Session.waitFor condition describe probe accept interval timeout) := by
  intro w
  obtain ⟨hfst, hsnd⟩ := waitFor_run condition describe probe accept interval timeout w
  obtain ⟨trace, hnoted, hkinds, hpolled⟩ := pollFrom_polled hprobe accept interval timeout
    (Clock.now w) (timeout + patience) w
  change w.Noted trace (pollUntil probe accept interval timeout w).2 at hnoted
  change Polled tells accept (pollUntil probe accept interval timeout w).1 trace at hpolled
  rw [hfst, hsnd]
  generalize pollUntil probe accept interval timeout w = outcome at hnoted hpolled
  rcases outcome with ⟨result, w'⟩
  have hof : OfKinds [kind] trace := fun note hnote => List.mem_singleton.mpr (hkinds note hnote)
  cases result with
  | ok value =>
    obtain ⟨before, last, rfl, hlast, haccept, hbefore⟩ := hpolled.of_ok
    have htold : ∀ note ∈ before, ∃ other, tells (.ok other) note := fun note hnote =>
      (hbefore note hnote).imp fun _ => And.left
    refine ⟨_, hnoted, .of_ok hof ?_ ?_ ⟨before, last, rfl, hlast, haccept, hbefore⟩⟩
    · intro note hnote
      rcases List.mem_append.mp hnote with hmem | hmem
      · obtain ⟨other, hother⟩ := htold note hmem
        exact hserves other note hother
      · rw [List.mem_singleton.mp hmem]
        exact hserves value last hlast
    · -- All probes ask about one thing, which the last one finds.
      apply Scenario.endsWaits_of_last (hends value last hlast haccept)
      intro note hnote
      obtain ⟨other, hother⟩ := htold note hnote
      exact (hsubject value last hlast).trans (hsubject other note hother).symm
  | error error => exact ⟨trace, hnoted, .of_error hof fun _ => hpolled.of_error⟩

/-- A hold that succeeds has seen only values that it accepts; one that fails has not, unless it
never ends. -/
theorem hold (hprobe : Does kind tells probe)
    (hsuffices : ∀ value note, tells (.ok value) note → Suffices scenario note)
    (condition : String) (describe : α → String) (accept : α → Bool) (interval window : Nat) :
    Accounts scenario [kind]
      (fun _ trace => trace ≠ [] ∧
        ∀ note ∈ trace, ∃ value, tells (.ok value) note ∧ accept value = true)
      (fun trace => (∀ note ∈ trace, ∃ result, tells result note) ∧
        ∃ note ∈ trace, Refused tells accept note)
      (Session.hold condition describe probe accept interval window) := by
  intro w
  obtain ⟨hfst, hsnd⟩ := hold_run condition describe probe accept interval window w
  obtain ⟨trace, hnoted, hkinds, hheld⟩ := holdFrom_held hprobe accept interval window
    (Clock.now w) (window + patience) w
  change w.Noted trace (holdSteady probe accept interval window w).2 at hnoted
  change Held tells accept (holdSteady probe accept interval window w).1 trace at hheld
  rw [hfst, hsnd]
  generalize holdSteady probe accept interval window w = outcome at hnoted hheld
  rcases outcome with ⟨result, w'⟩
  have hof : OfKinds [kind] trace := fun note hnote => List.mem_singleton.mpr (hkinds note hnote)
  cases result with
  | ok value =>
    have hall : ∀ note ∈ trace, Suffices scenario note := by
      intro note hnote
      obtain ⟨seen, hseen, -⟩ := hheld.of_ok.2 note hnote
      exact hsuffices seen note hseen
    have hends : scenario.EndsWaits trace :=
      Scenario.endsWaits_of_forall fun note hnote => (hall note hnote).waitsNoMore
    exact ⟨trace, hnoted, .of_ok hof (fun note hnote => (hall note hnote).serves) hends hheld.of_ok⟩
  | error error =>
    refine ⟨trace, hnoted, .of_error hof fun hconcludes => ?_⟩
    rcases hheld.of_error with rfl | hrefused
    · exact absurd rfl (hconcludes condition)
    · exact ⟨hheld.told, hrefused⟩

end Accounts

namespace Passes

variable {scenario : Scenario} {kinds kinds' : List Deed.Kind}

theorem bind {first : Session σ α} {next : α → Session σ β} (hfirst : Passes scenario kinds first)
    (hnext : ∀ value, Passes scenario kinds' (next value)) :
    Passes scenario (kinds ++ kinds') (first >>= next) :=
  Accounts.andThen hfirst hnext fun _ _ _ _ _ _ => trivial

theorem pure (value : α) : Passes scenario [] (Pure.pure value : Session σ α) :=
  (Accounts.pure value).passes

theorem uniqueName (stem : String) :
    Passes scenario [] (Session.uniqueName stem : Session σ String) := by
  intro w
  exact ⟨[], .nil rfl, .of_ok (List.forall_mem_nil _) (List.forall_mem_nil _) trivial trivial⟩

end Passes

end Check

end ContainerCheck
