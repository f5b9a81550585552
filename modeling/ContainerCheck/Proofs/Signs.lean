import ContainerCheck.Proofs.Deeds

namespace ContainerCheck

open ContainerCheck.Cri ContainerCheck.Text

variable {σ : Type}

/-- What deeds of one kind can show. -/
structure Sign (σ : Type) where
  kind : Deed.Kind
  shownBy : Note σ → Prop
  kind_eq : ∀ note, shownBy note → note.deed.kind = kind

/-- Whether signs are seen in this order. -/
inductive Shows : List (Sign σ) → List (Note σ) → Prop
  | nil (trace : List (Note σ)) : Shows [] trace
  | skip {signs : List (Sign σ)} {trace : List (Note σ)} (note : Note σ) (h : Shows signs trace) :
    Shows signs (note :: trace)
  | found {sign : Sign σ} {signs : List (Sign σ)} {note : Note σ} {trace : List (Note σ)}
    (hshown : sign.shownBy note) (h : Shows signs trace) : Shows (sign :: signs) (note :: trace)

def OfKinds (kinds : List Deed.Kind) (trace : List (Note σ)) : Prop :=
  ∀ note ∈ trace, note.deed.kind ∈ kinds

theorem OfKinds.append {kinds kinds' : List Deed.Kind} {trace more : List (Note σ)}
    (h : OfKinds kinds trace) (h' : OfKinds kinds' more) :
    OfKinds (kinds ++ kinds') (trace ++ more) := by
  intro note hnote
  rcases List.mem_append.mp hnote with hmem | hmem
  · exact List.mem_append_left _ (h note hmem)
  · exact List.mem_append_right _ (h' note hmem)

theorem Sign.not_shownBy {sign : Sign σ} {kinds : List Deed.Kind} {trace : List (Note σ)}
    (hkind : sign.kind ∉ kinds) (h : OfKinds kinds trace) :
    ∀ note ∈ trace, ¬ sign.shownBy note := by
  intro note hnote hshown
  rw [← sign.kind_eq note hshown] at hkind
  exact hkind (h note hnote)

namespace Shows

variable {sign : Sign σ} {signs more : List (Sign σ)} {trace rest : List (Note σ)}

theorem single {note : Note σ} (h : sign.shownBy note) : Shows [sign] [note] := .found h (.nil [])

theorem behind (before : List (Note σ)) (h : Shows signs trace) :
    Shows signs (before ++ trace) := by
  induction before with
  | nil => exact h
  | cons note before ih => exact .skip note ih

theorem append (h : Shows signs trace) (h' : Shows more rest) :
    Shows (signs ++ more) (trace ++ rest) := by
  induction h with
  | nil trace => exact h'.behind trace
  | skip note _ ih => exact .skip note ih
  | found hshown _ ih => exact .found hshown ih

theorem before (h : Shows signs trace) (rest : List (Note σ)) : Shows signs (trace ++ rest) := by
  have happend := h.append (.nil rest)
  rwa [List.append_nil] at happend

theorem tail (h : Shows (sign :: signs) trace) : Shows signs trace := by
  generalize hall : sign :: signs = all at h
  induction h with
  | nil => cases hall
  | skip note _ ih => exact .skip note (ih hall)
  | found _ h _ =>
    cases hall
    exact .skip _ h

/-- What is seen at last is seen. -/
theorem last (first : List (Sign σ)) (h : Shows (first ++ signs) trace) : Shows signs trace := by
  induction first with
  | nil => exact h
  | cons sign first ih => exact ih h.tail

theorem head_mono {sign' : Sign σ} (h : Shows (sign :: signs) trace)
    (hsign : ∀ note, sign.shownBy note → sign'.shownBy note) : Shows (sign' :: signs) trace := by
  generalize hall : sign :: signs = all at h
  induction h with
  | nil => cases hall
  | skip note _ ih => exact .skip note (ih hall)
  | found hshown h _ =>
    cases hall
    exact .found (hsign _ hshown) h

theorem tail_mono {signs' : List (Sign σ)} (h : Shows (sign :: signs) trace)
    (hsigns : ∀ rest : List (Note σ), Shows signs rest → Shows signs' rest) :
    Shows (sign :: signs') trace := by
  generalize hall : sign :: signs = all at h
  induction h with
  | nil => cases hall
  | skip note _ ih => exact .skip note (ih hall)
  | found hshown h _ =>
    cases hall
    exact .found hshown (hsigns _ h)

theorem exists_mem (h : Shows (sign :: signs) trace) : ∃ note ∈ trace, sign.shownBy note := by
  generalize hall : sign :: signs = all at h
  induction h with
  | nil => cases hall
  | skip note _ ih =>
    obtain ⟨other, hother, hshown⟩ := ih hall
    exact ⟨other, List.mem_cons_of_mem _ hother, hshown⟩
  | found hshown _ _ =>
    cases hall
    exact ⟨_, List.mem_cons_self, hshown⟩

theorem of_mem {note : Note σ} (hnote : note ∈ trace) (h : sign.shownBy note) :
    Shows [sign] trace := by
  obtain ⟨before, after, rfl⟩ := List.append_of_mem hnote
  exact (Shows.found h (.nil after)).behind before

/-- The first sign is seen no earlier than any note shows it. -/
theorem of_append_left (hnot : ∀ note ∈ trace, ¬ sign.shownBy note)
    (h : Shows (sign :: signs) (trace ++ rest)) : Shows (sign :: signs) rest := by
  induction trace with
  | nil => exact h
  | cons note trace ih =>
    obtain ⟨hnote, htrace⟩ := List.forall_mem_cons.mp hnot
    rw [List.cons_append] at h
    cases h with
    | skip _ h => exact ih htrace h
    | found hshown _ => exact absurd hshown hnote

/-- No sign is seen once deeds of its kind are over. -/
theorem of_append_right {kinds : List Deed.Kind} (hkinds : ∀ sign ∈ signs, sign.kind ∉ kinds)
    (hrest : OfKinds kinds rest) (h : Shows signs (trace ++ rest)) : Shows signs trace := by
  induction trace generalizing signs with
  | nil =>
    cases signs with
    | nil => exact .nil []
    | cons sign signs =>
      obtain ⟨note, hnote, hshown⟩ := exists_mem h
      have hkind := hkinds sign List.mem_cons_self
      exact absurd hshown (Sign.not_shownBy hkind hrest note hnote)
  | cons note trace ih =>
    rw [List.cons_append] at h
    cases h with
    | nil => exact .nil _
    | skip _ h => exact .skip note (ih hkinds h)
    | found hshown h =>
      exact .found hshown (ih (fun sign hsign => hkinds sign (List.mem_cons_of_mem _ hsign)) h)

/-- Deeds of other kinds around a run add nothing to what is seen in it. -/
theorem of_around {kinds kinds' : List Deed.Kind} {first last : List (Note σ)}
    (hkinds : ∀ sign ∈ signs, sign.kind ∉ kinds) (hkinds' : ∀ sign ∈ signs, sign.kind ∉ kinds')
    (hfirst : OfKinds kinds first) (hlast : OfKinds kinds' last)
    (h : Shows signs (first ++ trace ++ last)) : Shows signs trace := by
  have hbefore := of_append_right hkinds' hlast h
  cases signs with
  | nil => exact .nil trace
  | cons sign signs =>
    exact of_append_left (Sign.not_shownBy (hkinds sign List.mem_cons_self) hfirst) hbefore

end Shows

namespace Sign

def answers (request : Request) (p : request.Value → Prop) : Sign σ where
  kind := .call request.operation
  shownBy note := ∃ value, note.deed = .call (.asked request (.ok value)) ∧ p value
  kind_eq note := by
    rintro ⟨value, hdeed, -⟩
    rw [hdeed]
    rfl

theorem answers_mono {request : Request} {p q : request.Value → Prop} {trace : List (Note σ)}
    (h : Shows [answers request p] trace) (hpq : ∀ value, p value → q value) :
    Shows [answers request q] trace := by
  apply h.head_mono
  rintro note ⟨value, hdeed, hvalue⟩
  exact ⟨value, hdeed, hpq value hvalue⟩

def refuses (request : Request) : Sign σ where
  kind := .call request.operation
  shownBy note := ∃ message, note.deed = .call (.asked request (.error message))
  kind_eq note := by
    rintro ⟨message, hdeed⟩
    rw [hdeed]
    rfl

def creates (id : ContainerId) (p : ContainerConfig → SandboxConfig → Prop) : Sign σ where
  kind := .call .createContainer
  shownBy note := ∃ sandbox config sandboxConfig, note.deed =
    .call (.asked (.createContainer sandbox config sandboxConfig) (.ok id)) ∧ p config sandboxConfig
  kind_eq note := by
    rintro ⟨sandbox, config, sandboxConfig, hdeed, -⟩
    rw [hdeed]
    rfl

theorem creates_mono {id : ContainerId} {p q : ContainerConfig → SandboxConfig → Prop}
    {signs : List (Sign σ)} {trace : List (Note σ)} (h : Shows (creates id p :: signs) trace)
    (hpq : ∀ config sandboxConfig, p config sandboxConfig → q config sandboxConfig) :
    Shows (creates id q :: signs) trace := by
  apply h.head_mono
  rintro note ⟨sandbox, config, sandboxConfig, hdeed, hp⟩
  exact ⟨sandbox, config, sandboxConfig, hdeed, hpq config sandboxConfig hp⟩

def stops (client : Client σ) (id : ContainerId) : Sign σ where
  kind := .call .stopContainer
  shownBy note := ∃ timeout, note.deed = .call (.stopped id timeout (some (.returned (.ok ())))) ∧
    (client.stop id timeout note.time note.before).took < timeout
  kind_eq note := by
    rintro ⟨timeout, hdeed, -⟩
    rw [hdeed]
    rfl

def reads (path : String) (p : List Log.Record → Prop) : Sign σ where
  kind := .readLog
  shownBy note := note.deed = .readLog path ∧
    ∃ records, recordsOf path (note.before.tree.read path) = .ok records ∧ p records
  kind_eq note := by
    rintro ⟨hdeed, -⟩
    rw [hdeed]
    rfl

def finds (path : String) : Sign σ where
  kind := .look
  shownBy note := note.deed = .look path ∧ note.before.tree.exists? path = .ok true
  kind_eq note := by
    rintro ⟨hdeed, -⟩
    rw [hdeed]
    rfl

def renames (source target : String) : Sign σ where
  kind := .rename
  shownBy note := note.deed = .rename source target ∧
    ∃ tree, note.before.tree.rename source target = .ok tree
  kind_eq note := by
    rintro ⟨hdeed, -⟩
    rw [hdeed]
    rfl

def oneOf {ι : Type} (kind : Deed.Kind) (sign : ι → Sign σ) (h : ∀ i, (sign i).kind = kind) :
    Sign σ where
  kind := kind
  shownBy note := ∃ i, (sign i).shownBy note
  kind_eq note := by
    rintro ⟨i, hshown⟩
    rw [← h i]
    exact (sign i).kind_eq note hshown

def someAnswers {ι : Type} (operation : Operation) (request : ι → Request)
    (hop : ∀ i, (request i).operation = operation) (p : ∀ i, (request i).Value → Prop) : Sign σ :=
  oneOf (.call operation) (fun i => answers (request i) (p i)) fun i =>
    congrArg Deed.Kind.call (hop i)

/-- What a call was answered is what a sign shows of it. -/
theorem answer_of_shownBy {ι : Type} {operation : Operation} {request : ι → Request}
    (hinj : Function.Injective request) {hop : ∀ i, (request i).operation = operation}
    {p : ∀ i, (request i).Value → Prop} {note : Note σ} {i : ι} {answer : (request i).Answer}
    (hdeed : note.deed = .call (.asked (request i) answer))
    (hshown : (someAnswers operation request hop p).shownBy note) :
    ∃ value, answer = .ok value ∧ p i value := by
  obtain ⟨j, value, hdeed', hp⟩ := hshown
  rw [hdeed] at hdeed'
  injection hdeed' with hexchange
  injection hexchange with hrequest hanswer
  obtain rfl := hinj hrequest
  cases eq_of_heq hanswer
  exact ⟨value, rfl, hp⟩

def reports (id : ContainerId) (p : ContainerStatus → Prop) : Sign σ :=
  answers (.containerStatus id) p

def starts (id : ContainerId) : Sign σ := answers (.startContainer id) fun _ => True

def removes (id : ContainerId) : Sign σ := answers (.removeContainer id) fun _ => True

def reopens (id : ContainerId) : Sign σ := answers (.reopenLog id) fun _ => True

def lists (id : ContainerId) (p : List Container → Prop) : Sign σ :=
  answers (.listContainers ⟨some id⟩) p

def presents (image : Image) (p : ImageStatus → Prop) : Sign σ :=
  answers (.imageStatus image) fun status => ∃ found, status = some found ∧ p found

def prints (id : ContainerId) (command : List String) (timeout : Nat) (p : String → Prop) :
    Sign σ :=
  answers (.execSync id command timeout) fun output =>
    output.stderr = [] ∧ p (String.ofList (decodeLossy output.stdout))

end Sign

end ContainerCheck
