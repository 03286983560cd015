import ScriptMachine.OpcodeTable.Layout
import ScriptMachine.Proofs.Numerals

/-!
# Bytes of opcodes

A text denotes a byte if, apart from blanks around it, it is a hexadecimal numeral below 256 that
the mark of hexadecimal numerals and then a plus sign may precede. Exactly these texts are read,
and each is read as the byte that it denotes. In particular a byte that is written is read back.
-/

namespace ScriptMachine.OpcodeTable

/-- The digits continue the numeral of a number to that of another. -/
def Continues (read : Nat) (digits : List Char) (number : Nat) : Prop :=
  ∃ values : List Nat, digits.map Hex.digit? = values.map some ∧
    values.foldl (fun number value => number * 16 + value) read = number

/-- The text denotes the byte. -/
def Denotes (text : String) (byte : Nat) : Prop :=
  ∃ before mark sign digits after, text.toList = before ++ (mark ++ (sign ++ digits)) ++ after ∧
    (∀ c ∈ before, Text.isBlank c) ∧ (∀ c ∈ after, Text.isBlank c) ∧
    mark ∈ [[], ['0', 'x'], ['0', 'X']] ∧ sign ∈ [[], ['+']] ∧ digits ≠ [] ∧
    Continues 0 digits byte ∧ byte < 256

theorem Denotes.lt {text : String} {byte : Nat} (denotes : Denotes text byte) : byte < 256 := by
  obtain ⟨_, _, _, _, _, _, _, _, _, _, _, _, small⟩ := denotes
  exact small

variable {digits text : List Char} {c : Char} {read byte : Nat}

/-! ## Digits -/

theorem continues_nil : Continues read [] byte ↔ read = byte := by
  constructor
  · rintro ⟨values, digits, rfl⟩
    cases values with
    | nil => rfl
    | cons value values => cases digits
  · rintro rfl
    exact ⟨[], rfl, rfl⟩

theorem continues_cons : Continues read (c :: digits) byte ↔
    ∃ value, Hex.digit? c = some value ∧ Continues (read * 16 + value) digits byte := by
  constructor
  · rintro ⟨values, same, rfl⟩
    cases values with
    | nil => cases same
    | cons value values =>
      obtain ⟨first, rest⟩ := List.cons.inj same
      exact ⟨value, first, values, rest, rfl⟩
  · rintro ⟨value, first, values, rest, rfl⟩
    exact ⟨value :: values, by simp [first, rest], rfl⟩

/-- Every character of a numeral is a digit. -/
theorem Continues.digit_of_mem (continues : Continues read digits byte) (inside : c ∈ digits) :
    ∃ value, Hex.digit? c = some value := by
  obtain ⟨values, same, -⟩ := continues
  have image : Hex.digit? c ∈ values.map some := same ▸ List.mem_map_of_mem inside
  obtain ⟨value, -, found⟩ := List.mem_map.1 image
  exact ⟨value, found.symm⟩

/-- A numeral that goes on does not become smaller. -/
theorem Continues.le (continues : Continues read digits byte) : read ≤ byte := by
  induction digits generalizing read with
  | nil => exact (continues_nil.1 continues).le
  | cons c rest ih =>
    obtain ⟨value, -, more⟩ := continues_cons.1 continues
    have later := ih more
    omega

/-- Digits are read on exactly if the numeral stays below 256. -/
theorem byteFrom_eq_ok_iff (small : read < 256) : byteFrom read digits = .ok byte ↔
    Continues read digits byte ∧ byte < 256 := by
  induction digits generalizing read with
  | nil =>
    rw [byteFrom, continues_nil, Except.ok.injEq]
    omega
  | cons c rest ih =>
    rw [byteFrom, continues_cons]
    cases digit : Hex.digit? c with
    | none => simp
    | some value =>
      simp only [Option.some.injEq, exists_eq_left']
      split
      · exact ih ‹_›
      · rename_i large
        simp only [reduceCtorEq, false_iff, not_and]
        intro continues
        have bound := continues.le
        omega

/-! ## Signs and marks -/

/-- A byte is read from digits behind a plus sign or without one. -/
theorem unsignedByte_eq_ok_iff : unsignedByte text = .ok byte ↔
    ∃ sign digits, text = sign ++ digits ∧ sign ∈ [[], ['+']] ∧ digits ≠ [] ∧
      Continues 0 digits byte ∧ byte < 256 := by
  have noDigit : Hex.digit? '+' = none := by decide
  constructor
  · intro read
    unfold unsignedByte at read
    split at read
    · cases read
    · cases read
    · rename_i digits some_
      exact ⟨['+'], digits, rfl, by simp, by rintro rfl; exact some_ rfl,
        (byteFrom_eq_ok_iff (by decide)).1 read⟩
    · rename_i some_ _ _
      exact ⟨[], text, rfl, by simp, some_, (byteFrom_eq_ok_iff (by decide)).1 read⟩
  · rintro ⟨sign, digits, rfl, signed, some_, value⟩
    obtain ⟨first, rest, rfl⟩ := List.exists_cons_of_ne_nil some_
    simp only [List.mem_cons, List.not_mem_nil, or_false] at signed
    obtain ⟨digit, found, -⟩ := continues_cons.1 value.1
    have unsigned : first ≠ '+' := by
      rintro rfl
      rw [noDigit] at found
      cases found
    rcases signed with rfl | rfl
    · rw [List.nil_append, unsignedByte]
      · exact (byteFrom_eq_ok_iff (by decide)).2 value
      · simp
      · exact fun same => unsigned (List.cons.inj same).1
      · exact fun _ same => unsigned (List.cons.inj same).1
    · rw [List.singleton_append, unsignedByte]
      · exact (byteFrom_eq_ok_iff (by decide)).2 value
      · simp

/-- A text is a mark, or none, and what is left of it without the mark. -/
theorem exists_mark (text : List Char) :
    ∃ mark ∈ [[], ['0', 'x'], ['0', 'X']], text = mark ++ dropMark text := by
  unfold dropMark
  split
  · exact ⟨['0', 'x'], by simp, rfl⟩
  · exact ⟨['0', 'X'], by simp, rfl⟩
  · exact ⟨[], by simp, rfl⟩

/-- What is read as a byte without its mark does not begin with a mark itself. -/
theorem dropMark_append {mark : List Char} (marked : mark ∈ [[], ['0', 'x'], ['0', 'X']])
    (read : unsignedByte text = .ok byte) : dropMark (mark ++ text) = text := by
  simp only [List.mem_cons, List.not_mem_nil, or_false] at marked
  rcases marked with rfl | rfl | rfl
  · obtain ⟨sign, digits, rfl, signed, -, continues, -⟩ := unsignedByte_eq_ok_iff.1 read
    have noDigit (c : Char) (inside : c ∈ digits) : Hex.digit? c ≠ none := by
      obtain ⟨value, found⟩ := continues.digit_of_mem inside
      simp [found]
    simp only [List.mem_cons, List.not_mem_nil, or_false] at signed
    rcases signed with rfl | rfl
    · rw [List.nil_append, List.nil_append]
      unfold dropMark
      split
      · exact absurd (by decide) (noDigit 'x' (by simp))
      · exact absurd (by decide) (noDigit 'X' (by simp))
      · rfl
    · rfl
  · rfl
  · rfl

/-! ## Blanks -/

/-- A text without the blanks around it. -/
theorem exists_blanks (text : List Char) : ∃ before after,
    text = before ++ Text.trim text ++ after ∧ (∀ c ∈ before, Text.isBlank c) ∧
      ∀ c ∈ after, Text.isBlank c := by
  have front := List.takeWhile_append_dropWhile (p := Text.isBlank) (l := text)
  have back := List.takeWhile_append_dropWhile (p := Text.isBlank)
    (l := (text.dropWhile Text.isBlank).reverse)
  refine ⟨text.takeWhile Text.isBlank,
    ((text.dropWhile Text.isBlank).reverse.takeWhile Text.isBlank).reverse, ?_, ?_, ?_⟩
  · unfold Text.trim
    rw [List.append_assoc, ← List.reverse_append, back, List.reverse_reverse, front]
  · exact fun c inside => List.mem_takeWhile_imp inside
  · intro c inside
    exact List.mem_takeWhile_imp (List.mem_reverse.1 inside)

/-- Blanks around a text without blanks are dropped. -/
theorem trim_append {before core after : List Char} (front : ∀ c ∈ before, Text.isBlank c)
    (back : ∀ c ∈ after, Text.isBlank c) (visible : ∀ c ∈ core, Text.isBlank c = false)
    (some_ : core ≠ []) : Text.trim (before ++ core ++ after) = core := by
  have stays {core : List Char} (visible : ∀ c ∈ core, Text.isBlank c = false) (some_ : core ≠ [])
      (rest : List Char) : (core ++ rest).dropWhile Text.isBlank = core ++ rest := by
    obtain ⟨c, core, rfl⟩ := List.exists_cons_of_ne_nil some_
    simp [visible c List.mem_cons_self]
  have stays' := @stays core.reverse (by simpa using visible) (by simpa using some_) []
  rw [List.append_nil] at stays'
  unfold Text.trim
  rw [List.append_assoc, List.dropWhile_append_of_pos front, stays visible some_,
    List.reverse_append, List.dropWhile_append_of_pos (by simpa using back), stays',
    List.reverse_reverse]

/-- A digit is no blank. -/
theorem isBlank_eq_false {value : Nat} (digit : Hex.digit? c = some value) :
    Text.isBlank c = false := by
  simp only [Hex.digit?, Bool.and_eq_true, decide_eq_true_eq, Char.le_def,
    UInt32.le_iff_toNat_le] at digit
  have range : 0x30 ≤ c.toNat ∧ c.toNat ≤ 0x39 ∨ 0x61 ≤ c.toNat ∧ c.toNat ≤ 0x66 ∨
      0x41 ≤ c.toNat ∧ c.toNat ≤ 0x46 := by
    split at digit
    · exact .inl ‹_›
    · split at digit
      · exact .inr (.inl ‹_›)
      · split at digit
        · exact .inr (.inr ‹_›)
        · cases digit
  simp [Text.isBlank]
  omega

/-- There are no blanks in what denotes a byte. -/
theorem isBlank_eq_false_of_mem {mark sign : List Char}
    (marked : mark ∈ [[], ['0', 'x'], ['0', 'X']]) (signed : sign ∈ [[], ['+']])
    (continues : Continues read digits byte) :
    ∀ c ∈ mark ++ (sign ++ digits), Text.isBlank c = false := by
  simp only [List.mem_cons, List.not_mem_nil, or_false] at marked signed
  intro c inside
  rcases List.mem_append.1 inside with inside | inside
  · rcases marked with rfl | rfl | rfl
    · cases inside
    · fin_cases inside <;> rfl
    · fin_cases inside <;> rfl
  · rcases List.mem_append.1 inside with inside | inside
    · rcases signed with rfl | rfl
      · cases inside
      · fin_cases inside
        rfl
    · obtain ⟨value, digit⟩ := continues.digit_of_mem inside
      exact isBlank_eq_false digit

/-! ## Bytes -/

/-- A text is read as a byte exactly if it denotes it. -/
theorem parseByte_eq_ok_iff {text : String} {byte : UInt8} :
    parseByte text = .ok byte ↔ Denotes text byte.toNat := by
  have read : parseByte text = .ok byte ↔
      unsignedByte (dropMark (Text.trim text.toList)) = .ok byte.toNat := by
    unfold parseByte
    dsimp only
    cases result : unsignedByte (dropMark (Text.trim text.toList)) with
    | error error => simp
    | ok number =>
      obtain ⟨_, _, _, _, _, _, small⟩ := unsignedByte_eq_ok_iff.1 result
      simp only [Except.ok.injEq, ← UInt8.toNat_inj, UInt8.toNat_ofNat',
        Nat.mod_eq_of_lt small]
  rw [read]
  constructor
  · intro read
    obtain ⟨before, after, same, front, back⟩ := exists_blanks text.toList
    obtain ⟨mark, marked, rest⟩ := exists_mark (Text.trim text.toList)
    obtain ⟨sign, digits, unmarked, signed, some_, value⟩ := unsignedByte_eq_ok_iff.1 read
    refine ⟨before, mark, sign, digits, after, ?_, front, back, marked, signed, some_, value⟩
    rw [← unmarked, ← rest, ← same]
  · rintro ⟨before, mark, sign, digits, after, same, front, back, marked, signed, some_, value⟩
    have unsigned : unsignedByte (sign ++ digits) = .ok byte.toNat :=
      unsignedByte_eq_ok_iff.2 ⟨sign, digits, rfl, signed, some_, value⟩
    have visible := isBlank_eq_false_of_mem marked signed value.1
    rw [same, trim_append front back visible (by simp [some_]), dropMark_append marked unsigned,
      unsigned]

/-- A byte that is written denotes itself. -/
theorem denotes_hexByte (byte : UInt8) : Denotes (Numeral.hexByte byte) byte.toNat := by
  obtain ⟨high, small, low, small', value, digits⟩ := Numeral.exists_digits_hexByte byte
  refine ⟨[], ['0', 'x'], [], [Numeral.digit high, Numeral.digit low], [], by simp [digits],
    by simp, by simp, by simp, by simp, by simp, ?_, byte.toNat_lt⟩
  refine continues_cons.2 ⟨high, Numeral.digit?_digit high small, ?_⟩
  refine continues_cons.2 ⟨low, Numeral.digit?_digit low small', ?_⟩
  rw [continues_nil, value, Nat.zero_mul, Nat.zero_add]

end ScriptMachine.OpcodeTable
