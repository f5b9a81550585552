namespace ContainerCheck.Time

def isLeapYear (year : Int) : Bool := year % 4 == 0 && (year % 100 != 0 || year % 400 == 0)

def monthLengths (leap : Bool) : List Nat :=
  [31, if leap then 29 else 28, 31, 30, 31, 30, 31, 31, 30, 31, 30, 31]

/-- The days between 1 January of the year 1 and 1 January of a year. -/
def yearStart (year : Int) : Int :=
  365 * (year - 1) + (year - 1) / 4 - (year - 1) / 100 + (year - 1) / 400

/-- The day number of 1 January 1970 when 1 January of the year 1 has number zero. -/
def epochDay : Int := 719162

structure Date where
  year : Int
  month : Nat
  day : Nat
deriving Repr, DecidableEq

def Date.exists (d : Date) : Bool :=
  1 ≤ d.month && d.month ≤ 12 && 1 ≤ d.day &&
    d.day ≤ (monthLengths (isLeapYear d.year)).getD (d.month - 1) 0

def total (lengths : List Nat) : Nat := lengths.foldr (fun length rest => length + rest) 0

@[simp] theorem total_nil : total [] = 0 := rfl

@[simp] theorem total_cons (length : Nat) (rest : List Nat) :
    total (length :: rest) = length + total rest := rfl

/-- Days since 1 January 1970. -/
def Date.toDays (d : Date) : Int :=
  yearStart d.year + total ((monthLengths (isLeapYear d.year)).take (d.month - 1)) + d.day - 1 -
    epochDay

/-- The year that holds a day, by its mean length and then corrected by one. -/
def yearOfDay (day : Int) : Int :=
  let guess := 400 * day / 146097 + 1
  if day < yearStart guess then guess - 1
  else if yearStart (guess + 1) ≤ day then guess + 1
  else guess

/-- The month and the day in it, counted from `month` on. -/
def monthOfDay : List Nat → Nat → Nat → Nat × Nat
  | [], month, day => (month, day)
  | length :: rest, month, day =>
    if day < length then (month, day) else monthOfDay rest (month + 1) (day - length)

def Date.ofDays (days : Int) : Date :=
  let day := days + epochDay
  let year := yearOfDay day
  let found := monthOfDay (monthLengths (isLeapYear year)) 1 (day - yearStart year).toNat
  ⟨year, found.1, found.2 + 1⟩

theorem isLeapYear_eq_true_iff (year : Int) :
    isLeapYear year = true ↔ year % 4 = 0 ∧ (year % 100 ≠ 0 ∨ year % 400 = 0) := by
  simp [isLeapYear]

theorem yearStart_succ (year : Int) :
    yearStart (year + 1) = yearStart year + if isLeapYear year then 366 else 365 := by
  have h := isLeapYear_eq_true_iff year
  unfold yearStart
  split <;> rename_i hl
  · have := h.1 hl
    omega
  · have : ¬ (year % 4 = 0 ∧ (year % 100 ≠ 0 ∨ year % 400 = 0)) := fun hc => hl (h.2 hc)
    omega

theorem yearOfDay_bounds (day : Int) :
    yearStart (yearOfDay day) ≤ day ∧ day < yearStart (yearOfDay day + 1) := by
  simp only [yearOfDay]
  split
  · simp only [yearStart] at *
    omega
  · split
    · simp only [yearStart] at *
      omega
    · simp only [yearStart] at *
      omega

theorem monthOfDay_take_total {lengths : List Nat} {start index rest : Nat}
    (hi : index < lengths.length) (hr : rest < lengths[index]) :
    monthOfDay lengths start (total (lengths.take index) + rest) = (start + index, rest) := by
  induction lengths generalizing start index with
  | nil => simp at hi
  | cons length tail ih =>
    cases index with
    | zero => simp_all [monthOfDay]
    | succ index =>
      have key := @ih (start + 1) index (by simpa using hi) (by simpa using hr)
      rw [List.take_succ_cons, total_cons, Nat.add_assoc, monthOfDay, if_neg (by omega),
        Nat.add_sub_cancel_left, key, Nat.add_right_comm, Nat.add_assoc]

theorem total_monthLengths (leap : Bool) :
    total (monthLengths leap) = if leap then 366 else 365 := by
  cases leap <;> rfl

theorem length_monthLengths (leap : Bool) : (monthLengths leap).length = 12 := rfl

end ContainerCheck.Time
