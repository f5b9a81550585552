namespace ContainerCheck.Text

/-- Whether a character is white space of any script; a byte order mark is none. -/
def isBlank (c : Char) : Bool :=
  let n := c.toNat
  (0x9 ≤ n && n ≤ 0xd) || n == 0x20 || n == 0x85 || n == 0xa0 || n == 0x1680 ||
    (0x2000 ≤ n && n ≤ 0x200a) || n == 0x2028 || n == 0x2029 || n == 0x202f || n == 0x205f ||
    n == 0x3000

def dropBlanks : List Char → List Char
  | [] => []
  | c :: rest => if isBlank c then dropBlanks rest else c :: rest

@[simp] theorem dropBlanks_nil : dropBlanks [] = [] := rfl

theorem dropBlanks_cons_of_blank {c : Char} (h : isBlank c = true) (rest : List Char) :
    dropBlanks (c :: rest) = dropBlanks rest := by
  simp [dropBlanks, h]

theorem dropBlanks_cons_of_not_blank {c : Char} (h : isBlank c = false) (rest : List Char) :
    dropBlanks (c :: rest) = c :: rest := by
  simp [dropBlanks, h]

theorem dropBlanks_append_of_blanks {blanks : List Char} (h : ∀ c ∈ blanks, isBlank c = true)
    (text : List Char) : dropBlanks (blanks ++ text) = dropBlanks text := by
  induction blanks with
  | nil => rfl
  | cons c rest ih =>
    rw [List.cons_append, dropBlanks_cons_of_blank (h c (by simp))]
    exact ih fun d hd => h d (by simp [hd])

end ContainerCheck.Text
