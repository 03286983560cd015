import ScriptMachine.OpcodeTable.Render
import ScriptMachine.Proofs.Sequencing

/-!
# Layouts of opcode tables

The rows of a table are the opcodes of the specification, and their bytes are their positions.
Neighbouring rows have different names; nothing is said of rows that stand further apart. Since
distinct bytes leave only one order, the order in which the opcodes were specified does not matter.
-/

namespace ScriptMachine.OpcodeTable

/-- The byte of a row is read from its opcode. -/
def Row.Reads (row : Row) : Prop := parseByte row.opcode.byte = .ok row.byte

/-- The bytes of the rows are their positions. -/
def Numbered (rows : List Row) : Prop :=
  rows.map (fun row => row.byte.toNat) = List.range rows.length

/-- The rows are the given opcodes, in the order of their bytes. -/
structure Arranged (opcodes : List OpcodeSpec) (rows : List Row) : Prop where
  reads : ∀ row ∈ rows, row.Reads
  /-- Every opcode has a row, as often as it is specified. -/
  complete : (rows.map Row.opcode).Perm opcodes
  numbered : Numbered rows

/-- The rows are the layout of the given opcodes. -/
structure LaidOut (opcodes : List OpcodeSpec) (rows : List Row) : Prop
    extends Arranged opcodes rows where
  /-- Neighbouring rows have different names. -/
  renamed : rows.IsChain fun a b => a.opcode.name ≠ b.opcode.name

variable {opcodes others : List OpcodeSpec} {rows shuffled : List Row}

/-- The order of the opcodes does not matter. -/
theorem laidOut_iff_of_perm (same : opcodes.Perm others) :
    LaidOut opcodes rows ↔ LaidOut others rows :=
  ⟨fun laid => { laid with complete := laid.complete.trans same },
    fun laid => { laid with complete := laid.complete.trans same.symm }⟩

/-! ## Numbered rows -/

/-- The row at a position has that position as its byte. -/
theorem Numbered.toNat_getElem (numbered : Numbered rows) {position : Nat}
    (inside : position < rows.length) : rows[position].byte.toNat = position := by
  have entry := congrArg (fun bytes => bytes[position]?) numbered
  simp only [List.getElem?_map, List.getElem?_eq_getElem inside, List.getElem?_range inside,
    Option.map_some, Option.some.injEq] at entry
  exact entry

/-- A row stands at the position that is its byte. -/
theorem Numbered.getElem?_byte (numbered : Numbered rows) {row : Row} (listed : row ∈ rows) :
    rows[row.byte.toNat]? = some row := by
  obtain ⟨position, inside, rfl⟩ := List.getElem_of_mem listed
  rw [numbered.toNat_getElem inside]
  exact List.getElem?_eq_getElem inside

/-- Rows with the same byte are the same. -/
theorem Numbered.eq_of_byte (numbered : Numbered rows) {a b : Row} (left : a ∈ rows)
    (right : b ∈ rows) (same : a.byte = b.byte) : a = b := by
  have row := numbered.getElem?_byte left
  rw [same, numbered.getElem?_byte right] at row
  exact (Option.some.inj row).symm

theorem Numbered.increasing (numbered : Numbered rows) :
    rows.Pairwise fun a b => a.byte < b.byte := by
  have positions := List.pairwise_lt_range (n := rows.length)
  rw [← numbered, List.pairwise_map] at positions
  exact positions.imp UInt8.lt_iff_toNat_lt.2

theorem Numbered.nodup (numbered : Numbered rows) : rows.Nodup :=
  numbered.increasing.imp fun less same => UInt8.ne_of_lt less (congrArg Row.byte same)

/-! ## The order of rows -/

theorem Row.le_iff {a b : Row} : a.le b = true ↔
    a.byte < b.byte ∨ a.byte = b.byte ∧ a.opcode.name ≤ b.opcode.name := by
  simp [Row.le]

theorem Row.le_trans {a b c : Row} (first : a.le b) (second : b.le c) : a.le c := by
  rw [Row.le_iff] at *
  rcases first with less | ⟨same, names⟩
  · left
    rcases second with less' | ⟨same', _⟩
    · exact UInt8.lt_trans less less'
    · exact same' ▸ less
  · rcases second with less' | ⟨same', names'⟩
    · exact .inl (same ▸ less')
    · exact .inr ⟨same.trans same', String.le_trans names names'⟩

theorem Row.le_total (a b : Row) : (a.le b || b.le a) = true := by
  rw [Bool.or_eq_true, Row.le_iff, Row.le_iff]
  rcases UInt8.lt_or_le a.byte b.byte with less | more
  · exact .inl (.inl less)
  · rcases UInt8.lt_or_eq_of_le more with less | same
    · exact .inr (.inl less)
    · rcases String.le_total a.opcode.name b.opcode.name with names | names
      · exact .inl (.inr ⟨same.symm, names⟩)
      · exact .inr (.inr ⟨same, names⟩)

theorem Row.byte_eq_of_le {a b : Row} (below : a.le b) (above : b.le a) : a.byte = b.byte := by
  rw [Row.le_iff] at below above
  rcases below with less | ⟨same, _⟩
  · rcases above with less' | ⟨same, _⟩
    · exact absurd (UInt8.lt_trans less less') (UInt8.lt_irrefl _)
    · exact same.symm
  · exact same

/-- Sorting brings numbered rows back into their order. -/
theorem mergeSort_eq_of_perm (numbered : Numbered rows) (same : shuffled.Perm rows) :
    shuffled.mergeSort Row.le = rows := by
  have sorted : (shuffled.mergeSort Row.le).Pairwise fun a b => a.le b = true :=
    List.pairwise_mergeSort (fun a b c => @Row.le_trans a b c) Row.le_total shuffled
  have ordered : rows.Pairwise fun a b => a.le b = true :=
    numbered.increasing.imp fun less => Row.le_iff.2 (.inl less)
  have perm := (List.mergeSort_perm shuffled Row.le).trans same
  exact List.Perm.eq_of_pairwise
    (fun _ _ left right below above =>
      numbered.eq_of_byte (perm.mem_iff.1 left) right (Row.byte_eq_of_le below above))
    sorted ordered perm

/-! ## The checks -/

/-- Neighbours pass if they differ in their bytes and in their names. -/
theorem checkNeighbours_eq_ok : checkNeighbours rows = .ok () ↔
    rows.IsChain fun a b => a.byte ≠ b.byte ∧ a.opcode.name ≠ b.opcode.name := by
  fun_induction checkNeighbours rows with
  | case1 a b rest bytes => simp [bytes]
  | case2 a b rest bytes names => simp [names]
  | case3 a b rest bytes names ih => simp [bytes, names, ih]
  | case4 rows short =>
    rcases rows with _ | ⟨a, _ | ⟨b, rest⟩⟩
    · simp
    · simp
    · exact absurd rfl (short a b rest)

/-- Positions pass if the bytes count up from the first position. -/
theorem checkPositions_eq_ok {position : Nat} : checkPositions position rows = .ok () ↔
    rows.map (fun row => row.byte.toNat) = List.range' position rows.length := by
  fun_induction checkPositions position rows with
  | case1 => simp
  | case2 row rest ih => simp [List.range'_succ, ih]
  | case3 position row rest wrong => simp [List.range'_succ, wrong]

/-! ## Layouts -/

/-- The bytes of the opcodes are read one after the other. -/
theorem mapM_eq_ok_rows :
    opcodes.mapM (fun opcode => return { byte := ← parseByte opcode.byte, opcode }) =
        (.ok rows : Except TableError (List Row)) ↔
      (∀ row ∈ rows, row.Reads) ∧ rows.map Row.opcode = opcodes := by
  have entry (opcode : OpcodeSpec) (row : Row) :
      (do return { byte := ← parseByte opcode.byte, opcode } : Except TableError Row) = .ok row ↔
        row.Reads ∧ row.opcode = opcode := by
    rw [bind_eq_ok]
    constructor
    · rintro ⟨byte, read, made⟩
      cases made
      exact ⟨read, rfl⟩
    · rintro ⟨read, rfl⟩
      exact ⟨row.byte, read, rfl⟩
  simp only [mapM_eq_ok, entry]
  rw [← List.forall₂_eq_eq_eq, List.forall₂_map_left_iff, ← List.forall₂_and_left]
  exact ⟨List.Forall₂.flip, List.Forall₂.flip⟩

/-- Opcodes whose bytes can be read have rows. -/
theorem exists_rows (readable : ∀ opcode ∈ opcodes, ∃ byte, parseByte opcode.byte = .ok byte) :
    ∃ rows : List Row, (∀ row ∈ rows, row.Reads) ∧ rows.map Row.opcode = opcodes := by
  simp only [← mapM_eq_ok_rows, exists_mapM_eq_ok_iff]
  intro opcode listed
  obtain ⟨byte, read⟩ := readable opcode listed
  exact ⟨_, bind_eq_ok.2 ⟨byte, read, rfl⟩⟩

/-- What is a rearrangement of images are the images of a rearrangement. -/
theorem exists_perm_of_map_perm {α β : Type} {f : α → β} {entries : List α} {images : List β}
    (same : (entries.map f).Perm images) :
    ∃ moved : List α, moved.Perm entries ∧ moved.map f = images := by
  have each : List.Forall₂ (fun image entry => f entry = image) (entries.map f) entries := by
    rw [List.forall₂_map_left_iff, List.forall₂_same]
    exact fun _ _ => rfl
  obtain ⟨moved, found, perm⟩ := List.perm_comp_forall₂ same.symm each
  refine ⟨moved, perm, ?_⟩
  rw [← List.forall₂_eq_eq_eq, List.forall₂_map_left_iff]
  exact found.flip

/-- Opcodes have a layout exactly if it is found. -/
theorem layout_eq_ok_iff : layout opcodes = .ok rows ↔ LaidOut opcodes rows := by
  unfold layout
  simp only [bind_eq_ok, mapM_eq_ok_rows]
  constructor
  · rintro ⟨shuffled, ⟨reads, rfl⟩, ⟨⟩, neighbours, ⟨⟩, positions, done⟩
    cases done
    have perm := List.mergeSort_perm shuffled Row.le
    exact {
      reads := fun row listed => reads row (perm.mem_iff.1 listed)
      complete := perm.map Row.opcode
      numbered := by
        rw [Numbered, List.range_eq_range', ← checkPositions_eq_ok]
        exact positions
      renamed := (checkNeighbours_eq_ok.1 neighbours).imp fun _ _ differ => differ.2 }
  · intro laid
    obtain ⟨shuffled, perm, listed⟩ := exists_perm_of_map_perm laid.complete
    have sorted := mergeSort_eq_of_perm laid.numbered perm
    refine ⟨shuffled, ⟨fun row listed => laid.reads row (perm.mem_iff.1 listed), listed⟩,
      (), ?_, (), ?_, congrArg Except.ok sorted⟩
    · rw [sorted, checkNeighbours_eq_ok, List.isChain_iff_getElem]
      have bytes := List.isChain_iff_getElem.1 laid.numbered.increasing.isChain
      have names := List.isChain_iff_getElem.1 laid.renamed
      exact fun position inside =>
        ⟨UInt8.ne_of_lt (bytes position inside), names position inside⟩
    · rw [sorted, checkPositions_eq_ok, ← List.range_eq_range']
      exact laid.numbered

end ScriptMachine.OpcodeTable
