import ContainerCheck.Proofs.Accounts

namespace ContainerCheck.Check

open ContainerCheck.Cri ContainerCheck.Host ContainerCheck.Poll ContainerCheck.Session
  ContainerCheck.Text

variable {σ α β γ : Type}

theorem runtimeResult_eq_ok {operation : Operation} {answer : Except String α} {value : α}
    (h : runtimeResult operation answer = .ok value) : answer = .ok value := by
  cases answer with
  | ok seen => exact congrArg Except.ok (Except.ok.inj h)
  | error message => cases h

/-- A call that is answered with a value has gone well. -/
theorem wentWell_of_answer {note : Note σ} {request : Request} {value : request.Value}
    (h : note.deed = .call (.asked request (.ok value))) : note.WentWell := by
  unfold Note.WentWell
  rw [h]
  exact ⟨value, rfl⟩

theorem require_eq_lift (condition : Bool) (message : String) :
    (Session.require condition message : Session σ Unit) =
      Session.lift (if condition then .ok () else .error (.assertion message)) := by
  cases condition <;> rfl

theorem bind_require (step : Session σ α) (condition : α → Bool) (message : α → String) :
    (step >>= fun value => Session.require (condition value) (message value)) =
      step >>= fun value => Session.lift
        (if condition value then .ok () else .error (.assertion (message value))) :=
  congrArg (step >>= ·) (funext fun value => require_eq_lift (condition value) (message value))

theorem wentWell_of_readLog {note : Note σ} {path : String} {records : List Log.Record}
    (hdeed : note.deed = .readLog path)
    (hread : .ok records = recordsOf path (note.before.tree.read path)) : note.WentWell := by
  unfold Note.WentWell
  rw [hdeed]
  exact ⟨records, hread.symm⟩

namespace Harness

variable {h : Harness σ} {scenario : Scenario}

theorem does_call (request : Request) :
    Does (.call request.operation) (fun result note => ∃ answer,
      note.deed = .call (.asked request answer) ∧ result = runtimeResult request.operation answer)
      (h.call request) := by
  intro w
  exact ⟨_, .settle _ _ _ w, rfl, _, rfl, rfl⟩

/-- A call that succeeds is noted with its value. -/
theorem noted_of_call_ok {request : Request} {w w' : World σ} {value : request.Value}
    (hok : h.call request w = (.ok value, w')) :
    ∃ note, w.Noted [note] w' ∧ note.deed = .call (.asked request (.ok value)) := by
  obtain ⟨note, hnoted, -, answer, hdeed, hanswer⟩ := does_call (h := h) request w
  rw [hok] at hnoted hanswer
  rw [runtimeResult_eq_ok hanswer.symm] at hdeed
  exact ⟨note, hnoted, hdeed⟩

theorem wentWell_of_value {request : Request} (value : request.Value) (note : Note σ)
    (h : ∃ answer, note.deed = .call (.asked request answer) ∧
      .ok value = runtimeResult request.operation answer) : note.WentWell := by
  obtain ⟨answer, hdeed, hanswer⟩ := h
  rw [runtimeResult_eq_ok hanswer.symm] at hdeed
  exact wentWell_of_answer hdeed

/-- A call that is made once leaves nothing to wait for, unless it asks for a state that is waited
for. -/
theorem suffices_answer {request : Request}
    (hstatus : request.operation = .containerStatus → scenario.awaited = none)
    (value : request.Value) (note : Note σ) (hkind : note.deed.kind = .call request.operation)
    (h : ∃ answer, note.deed = .call (.asked request answer) ∧
      .ok value = runtimeResult request.operation answer) : Suffices scenario note := by
  refine suffices_of_wentWell (wentWell_of_value value note h) ?_ ?_
  · intro hasks
    exact hstatus (Deed.Kind.call.inj (hkind.symm.trans hasks))
  · intro hreads
    cases hkind.symm.trans hreads

section

variable (request : Request)
  (hstatus : request.operation = .containerStatus → scenario.awaited = none)
include hstatus

theorem accounts_call :
    Accounts scenario [.call request.operation]
      (fun value trace => Shows [.answers request (· = value)] trace) Anything
      (h.call request) := by
  refine (Accounts.of_does (does_call request) (suffices_answer hstatus)).mono ?_
    fun _ _ _ => trivial
  rintro value trace ⟨note, rfl, answer, hdeed, hanswer⟩
  rw [runtimeResult_eq_ok hanswer.symm] at hdeed
  exact .single ⟨value, hdeed, rfl⟩

/-- A call that goes well shows that it does. -/
theorem accounts_callWell :
    Accounts scenario [.call request.operation]
      (fun _ trace => Shows [.answers request fun _ => True] trace) Anything (h.call request) := by
  refine (accounts_call request hstatus).mono (fun value trace hshown => ?_) fun _ _ h => h
  exact Sign.answers_mono hshown fun _ _ => trivial

end

section

variable {ι : Type} {request : ι → Request} (hinj : Function.Injective request)
  {operation : Operation} (hop : ∀ i, (request i).operation = operation)
  (hstatus : operation = .containerStatus → scenario.awaited = none)
include hinj hstatus

/-- A call whose answer is checked. If it fails, there is no answer to any such call that has a
property which passes the check. -/
theorem accounts_check (f : ∀ i, (request i).Value → Except Error α)
    {p : ∀ i, (request i).Value → Prop} (hp : ∀ i value, p i value → ∃ seen, f i value = .ok seen)
    (i : ι) :
    Accounts scenario [.call (request i).operation]
      (fun seen trace => Shows [.answers (request i) fun value => f i value = .ok seen] trace)
      (Lacks [.someAnswers operation request hop p])
      (h.call (request i) >>= fun value => Session.lift (f i value)) := by
  refine (Accounts.of_check (does_call (request i))
    (suffices_answer fun heq => hstatus ((hop i).symm.trans heq)) (f i) ?_).mono ?_ fun _ _ h => h
  · rintro result note ⟨answer, hdeed, rfl⟩ hshown
    obtain ⟨value, rfl, hvalue⟩ := Sign.answer_of_shownBy hinj hdeed hshown
    obtain ⟨seen, hseen⟩ := hp i value hvalue
    exact ⟨value, seen, rfl, hseen⟩
  · rintro seen trace ⟨note, value, rfl, ⟨answer, hdeed, hanswer⟩, hpasses⟩
    rw [runtimeResult_eq_ok hanswer.symm] at hdeed
    exact .single ⟨value, hdeed, hpasses⟩

/-- A call that comes last. -/
theorem accounts_lastCall (i : ι) :
    Accounts scenario [.call (request i).operation]
      (fun _ trace => Shows [.answers (request i) fun _ => True] trace)
      (Lacks [.someAnswers operation request hop fun _ _ => True]) (h.call (request i)) := by
  refine (Accounts.of_does (does_call (request i))
    (suffices_answer fun heq => hstatus ((hop i).symm.trans heq))).mono ?_ ?_
  · rintro value trace ⟨note, rfl, answer, hdeed, hanswer⟩
    rw [runtimeResult_eq_ok hanswer.symm] at hdeed
    exact .single ⟨value, hdeed, trivial⟩
  · rintro trace - ⟨note, error, rfl, answer, hdeed, hanswer⟩ hseen
    obtain ⟨other, hother, hshown⟩ := hseen.exists_mem
    rw [List.mem_singleton.mp hother] at hshown
    obtain ⟨value, rfl, -⟩ := Sign.answer_of_shownBy hinj hdeed hshown
    cases hanswer

end

theorem passes_ensureImage (image : Image) :
    Passes scenario [.call .imageStatus, .call .pullImage] (h.ensureImage image) := by
  have hpull : Passes scenario [.call .pullImage] (do
      let _ ← h.call (.pullImage image)
      return : Session σ Unit) :=
    (accounts_call (.pullImage image) nofun).passes.bind fun _ => Passes.pure ()
  apply Passes.bind (accounts_call (.imageStatus image) nofun).passes
  intro status
  cases status with
  | some status => exact (Passes.pure ()).widen (List.nil_subset _)
  | none => exact hpull

def createKinds : List Deed.Kind := [.call .imageStatus, .call .pullImage, .call .createContainer]

theorem accounts_createContainer (fixture : Fixture) (config : ContainerConfig)
    {p : ContainerConfig → SandboxConfig → Prop} (hp : p config fixture.config) :
    Accounts scenario createKinds (fun id trace => Shows [.creates id p] trace) Anything
      (h.createContainer fixture config) := by
  refine Accounts.andThen (passes_ensureImage config.image)
    (fun _ => accounts_call (.createContainer fixture.id config fixture.config) nofun) ?_
  intro _ id trace more _ hmore
  apply (hmore.behind trace).head_mono
  rintro note ⟨value, hdeed, rfl⟩
  exact ⟨fixture.id, config, fixture.config, hdeed, hp⟩

theorem accounts_createDefaultContainer (fixture : Fixture) (stem : String) :
    Accounts scenario createKinds (fun id trace => Shows [.creates id fun _ _ => True] trace)
      Anything (h.createDefaultContainer fixture stem) :=
  Accounts.andThen (Passes.uniqueName stem)
    (fun _ => accounts_createContainer fixture _ trivial) fun _ _ trace _ _ hmore =>
      hmore.behind trace

theorem accounts_startContainer (id : ContainerId) :
    Accounts scenario [.call .startContainer] (fun _ trace => Shows [.starts id] trace) Anything
      (h.startContainer id) := accounts_callWell (.startContainer id) nofun

theorem accounts_containerStatus (hawaited : scenario.awaited = none) (id : ContainerId) :
    Accounts scenario [.call .containerStatus]
      (fun status trace => Shows [.reports id (· = status)] trace) Anything
      (h.containerStatus id) :=
  accounts_call (.containerStatus id) fun _ => hawaited

theorem reopenLog_injective : Function.Injective Request.reopenLog := by
  intro id other heq
  cases heq
  rfl

def someReopening : Sign σ :=
  .someAnswers .reopenContainerLog .reopenLog (fun _ => rfl) fun _ _ => True

theorem accounts_reopenLog (id : ContainerId) :
    Accounts scenario [.call .reopenContainerLog] (fun _ trace => Shows [.reopens id] trace)
      (Lacks [someReopening]) (h.reopenLog id) :=
  accounts_lastCall reopenLog_injective (fun _ => rfl) nofun id

theorem containerStatus_injective : Function.Injective Request.containerStatus := by
  intro id other heq
  cases heq
  rfl

theorem imageStatus_injective : Function.Injective Request.imageStatus := by
  intro image other heq
  cases heq
  rfl

def someReport (p : ContainerStatus → Prop) : Sign σ :=
  .someAnswers .containerStatus .containerStatus (fun _ => rfl) fun _ => p

/-- What a look at a container tells of its state. -/
def TellsState (id : ContainerId) (result : Except Error ContainerState) (note : Note σ) : Prop :=
  ∃ answer, note.deed = .call (.asked (.containerStatus id) answer) ∧
    result = (runtimeResult .containerStatus answer).bind fun status => .ok status.state

theorem does_state (id : ContainerId) :
    Does (.call .containerStatus) (TellsState id) (do return (← h.containerStatus id).state) := by
  intro w
  have hcall : Does _ _ (h.containerStatus id) := does_call (.containerStatus id)
  obtain ⟨note, hnoted, hkind, _, ⟨answer, hdeed, rfl⟩, hresult⟩ :=
    hcall.lift (fun status => .ok status.state) w
  exact ⟨note, hnoted, hkind, answer, hdeed, hresult⟩

namespace TellsState

variable {id : ContainerId} {state : ContainerState} {note : Note σ}

theorem exists_report (htells : TellsState id (.ok state) note) : ∃ status,
    note.deed = .call (.asked (.containerStatus id) (.ok status)) ∧ status.state = state := by
  obtain ⟨answer, hdeed, hresult⟩ := htells
  cases answer with
  | ok status =>
    cases hresult
    exact ⟨status, hdeed, rfl⟩
  | error message => cases hresult

theorem serves (htells : TellsState id (.ok state) note) : Serves scenario note := by
  obtain ⟨status, hdeed, -⟩ := htells.exists_report
  exact serves_of_wentWell (wentWell_of_answer hdeed)

theorem subject (htells : TellsState id (.ok state) note) :
    note.deed.subject? = some (.inl id) := by
  obtain ⟨status, hdeed, -⟩ := htells.exists_report
  rw [hdeed]
  rfl

/-- Once the state is there that is waited for, there is no more to wait for. -/
theorem not_stillWaits (htells : TellsState id (.ok state) note)
    (hawaited : scenario.awaited = some state) : ¬ scenario.StillWaits note := by
  obtain ⟨status, hdeed, rfl⟩ := htells.exists_report
  rintro (⟨other, status', wanted, hdeed', hwanted, hstate⟩ | ⟨-, path, hdeed', -⟩)
  · cases hdeed.symm.trans hdeed'
    cases hwanted.symm.trans hawaited
    exact hstate rfl
  · cases hdeed.symm.trans hdeed'

end TellsState

/-- A look that does not find a state is no report of it. -/
theorem not_shownBy_of_refused {id : ContainerId} {state : ContainerState} {note : Note σ}
    (h : Refused (TellsState id) (· == state) note) :
    ¬ (someReport (·.state = state)).shownBy note := by
  intro hshown
  rcases h with ⟨error, answer, hdeed, hresult⟩ | ⟨seen, htells, hreject⟩
  · obtain ⟨status, rfl, -⟩ := Sign.answer_of_shownBy containerStatus_injective hdeed hshown
    cases hresult
  · obtain ⟨status, hdeed, rfl⟩ := htells.exists_report
    obtain ⟨other, heq, rfl⟩ := Sign.answer_of_shownBy containerStatus_injective hdeed hshown
    cases heq
    exact absurd hreject (by simp)

/-- A wait for a state ends with a report of it, or there was none. -/
theorem accounts_waitForState {state : ContainerState} (hawaited : scenario.awaited = some state)
    (id : ContainerId) :
    Accounts scenario [.call .containerStatus]
      (fun _ trace => Shows [.reports id (·.state = state)] trace)
      (Lacks [someReport (·.state = state)]) (h.waitForState id state) := by
  refine ((Accounts.waitFor (does_state id) (fun _ _ => TellsState.serves) (some (.inl id))
    (fun _ _ => TellsState.subject) _ _ _ ?_ _ _).ignoring).mono ?_ ?_
  · intro seen note htells haccept
    exact htells.not_stillWaits (beq_iff_eq.mp haccept ▸ hawaited)
  · rintro - trace ⟨value, before, last, rfl, htells, haccept, -⟩
    obtain ⟨status, hdeed, rfl⟩ := htells.exists_report
    have hlast : (Sign.reports id (·.state = state)).shownBy last :=
      ⟨status, hdeed, beq_iff_eq.mp haccept⟩
    exact (Shows.single hlast).behind before
  · rintro trace - hrefused hseen
    obtain ⟨note, hnote, hshown⟩ := hseen.exists_mem
    exact not_shownBy_of_refused (hrefused note hnote) hshown

theorem does_stopContainer (id : ContainerId) (timeout : Nat) :
    Does (.call .stopContainer) (fun result note => ∃ ending,
      note.deed = .call (.stopped id timeout ending) ∧ result =
        (stopResult id timeout (h.client.stop id timeout note.time note.before).took ending).1)
      (h.stopContainer id timeout) := by
  intro w
  exact ⟨_, .settle _ _ _ w, rfl, _, rfl, rfl⟩

theorem stopResult_eq_ok {id : ContainerId} {timeout took : Nat} {ending : Option Ending}
    (h : (stopResult id timeout took ending).1 = .ok ()) :
    ending = some (.returned (.ok ())) ∧ took < timeout := by
  cases ending with
  | none => cases h
  | some ending =>
    by_cases hintime : took < timeout
    · rw [stopResult, if_pos hintime] at h
      cases ending with
      | lost => cases h
      | returned result =>
        cases result with
        | ok value => exact ⟨rfl, hintime⟩
        | error message => cases h
    · rw [stopResult, if_neg hintime] at h
      cases h

theorem accounts_stopContainer (id : ContainerId) (timeout : Nat) :
    Accounts scenario [.call .stopContainer] (fun _ trace => Shows [.stops h.client id] trace)
      Anything (h.stopContainer id timeout) := by
  have hwell : ∀ value note, (∃ ending, note.deed = .call (.stopped id timeout ending) ∧
      .ok value =
        (stopResult id timeout (h.client.stop id timeout note.time note.before).took ending).1) →
      note.WentWell ∧ (Sign.stops h.client id).shownBy note := by
    rintro value note ⟨ending, hdeed, hresult⟩
    obtain ⟨rfl, hintime⟩ := stopResult_eq_ok hresult.symm
    refine ⟨?_, timeout, hdeed, hintime⟩
    unfold Note.WentWell
    rw [hdeed]
    rfl
  refine (Accounts.of_does (does_stopContainer id timeout) fun value note hkind htells =>
    suffices_of_wentWell (hwell value note htells).1 (hkind ▸ nofun) (hkind ▸ nofun)).mono ?_
      fun _ _ _ => trivial
  rintro value trace ⟨note, rfl, htells⟩
  exact .single (hwell value note htells).2

/-- A call whose answer must satisfy a condition. -/
theorem accounts_require {ι : Type} {request : ι → Request} (hinj : Function.Injective request)
    {operation : Operation} (hop : ∀ i, (request i).operation = operation)
    (hstatus : operation = .containerStatus → scenario.awaited = none)
    (condition : ∀ i, (request i).Value → Bool) (message : ∀ i, (request i).Value → String)
    (i : ι) :
    Accounts scenario [.call (request i).operation]
      (fun _ trace => Shows [.answers (request i) (condition i · = true)] trace)
      (Lacks [.someAnswers operation request hop (condition · · = true)])
      (h.call (request i) >>= fun value =>
        Session.require (condition i value) (message i value)) := by
  rw [bind_require]
  refine (accounts_check hinj hop hstatus (fun i value => if condition i value then .ok () else
    .error (.assertion (message i value))) ?_ i).mono ?_ fun _ _ h => h
  · intro i value hvalue
    exact ⟨(), if_pos hvalue⟩
  · intro seen trace hshown
    refine Sign.answers_mono hshown fun value hpasses => ?_
    by_contra hnot
    rw [if_neg hnot] at hpasses
    cases hpasses

def someListing (p : ContainerId → List Container → Prop) : Sign σ :=
  .someAnswers .listContainers (fun id : ContainerId => .listContainers ⟨some id⟩) (fun _ => rfl) p

theorem listContainers_injective :
    Function.Injective fun id : ContainerId => Request.listContainers ⟨some id⟩ := by
  intro id other heq
  cases heq
  rfl

theorem accounts_requireListed (id : ContainerId) :
    Accounts scenario [.call .listContainers]
      (fun _ trace => Shows [.lists id (lists · id = true)] trace)
      (Lacks [someListing fun id containers => lists containers id = true])
      (h.requireListed id) :=
  accounts_require listContainers_injective (fun _ => rfl) nofun
    (fun id containers => lists containers id) (fun _ _ => "container should be created") id

theorem accounts_requireUnlisted (id : ContainerId) :
    Accounts scenario [.call .listContainers]
      (fun _ trace => Shows [.lists id fun containers => (!lists containers id) = true] trace)
      (Lacks [someListing fun id containers => (!lists containers id) = true])
      (h.listContainers id >>= fun containers =>
        Session.require (!lists containers id) "container should be removed") :=
  accounts_require listContainers_injective (fun _ => rfl) nofun
    (fun id containers => !lists containers id) (fun _ _ => "container should be removed") id

theorem lift_bind_run (step : Session σ α) (f : α → Except Error β) (g : β → Except Error γ) :
    ((step >>= fun value => Session.lift (f value)) >>= fun seen => Session.lift (g seen)) =
      step >>= fun value => Session.lift ((f value).bind g) := by
  funext w
  simp only [bind_run]
  rcases step w with ⟨result, w'⟩
  cases result with
  | error error => rfl
  | ok value =>
    dsimp only
    cases f value with
    | ok seen => rfl
    | error error => rfl

def somePrint (timeout : Nat) (p : String → Prop) : Sign σ :=
  .someAnswers .execSync
    (fun i : ContainerId × List String => .execSync i.1 i.2 timeout) (fun _ => rfl)
    fun _ output => output.stderr = [] ∧ p (String.ofList (decodeLossy output.stdout))

/-- A command whose print must satisfy a condition. -/
theorem accounts_execRequire (id : ContainerId) (command : List String)
    (condition : String → Bool) (message : String → String) :
    Accounts scenario [.call .execSync]
      (fun _ trace =>
        Shows [.prints id command h.config.execSyncTimeout (condition · = true)] trace)
      (Lacks [somePrint h.config.execSyncTimeout (condition · = true)])
      (h.exec id command >>= fun printed =>
        Session.require (condition printed) (message printed)) := by
  have hinj : Function.Injective fun i : ContainerId × List String =>
      Request.execSync i.1 i.2 h.config.execSyncTimeout := by
    rintro ⟨id, command⟩ ⟨other, command'⟩ heq
    cases heq
    rfl
  rw [bind_require]
  unfold exec
  rw [lift_bind_run]
  refine (accounts_check hinj (fun _ => rfl) nofun (fun i output =>
    (execText i.2 output).bind fun printed =>
      if condition printed then .ok () else .error (.assertion (message printed)))
    ?_ (id, command)).mono ?_ fun _ _ h => h
  · rintro i output ⟨hquiet, hprint⟩
    refine ⟨(), ?_⟩
    rw [execText, if_pos hquiet]
    exact if_pos hprint
  · intro seen trace hshown
    refine Sign.answers_mono hshown fun output hpasses => ?_
    by_cases hquiet : output.stderr = []
    · rw [execText, if_pos hquiet] at hpasses
      refine ⟨hquiet, ?_⟩
      by_contra hnot
      cases (if_neg hnot).symm.trans hpasses
    · rw [execText, if_neg hquiet] at hpasses
      cases hpasses

def someRefusal (timeout : Nat) : Sign σ :=
  .oneOf (.call .execSync)
    (fun i : ContainerId × List String => .refuses (.execSync i.1 i.2 timeout)) fun _ => rfl

/-- The command that must fail is not heeded, and shows that it fails. -/
theorem accounts_verifyExecFails (id : ContainerId) (command : List String) :
    Accounts .execSyncWrongCommand [.call .execSync]
      (fun _ trace => Shows [.refuses (.execSync id command h.config.execSyncTimeout)] trace)
      (Lacks [someRefusal h.config.execSyncTimeout]) (h.verifyExecFails id command) := by
  have hdoes : Does (.call .execSync) (fun result note => ∃ answer, note.deed =
      .call (.asked (.execSync id command h.config.execSyncTimeout) answer) ∧
        result = expectFailure .execSync answer) (h.verifyExecFails id command) := by
    intro w
    exact ⟨_, .settle _ _ _ w, rfl, _, rfl, rfl⟩
  refine (Accounts.of_does hdoes ?_).mono ?_ ?_
  · rintro value note hkind ⟨answer, hdeed, -⟩
    refine ⟨fun hheeds => ?_, Scenario.not_stillWaits (hkind ▸ nofun) (hkind ▸ nofun)⟩
    rw [hdeed] at hheeds
    cases hheeds
  · rintro value trace ⟨note, rfl, answer, hdeed, hresult⟩
    cases answer with
    | ok output => cases hresult
    | error message => exact .single ⟨message, hdeed⟩
  · rintro trace - ⟨note, error, rfl, answer, hdeed, hresult⟩ hseen
    obtain ⟨other, hother, i, message, hrefused⟩ := hseen.exists_mem
    rw [List.mem_singleton.mp hother, hdeed] at hrefused
    cases hrefused
    cases hresult

end Harness

end ContainerCheck.Check
