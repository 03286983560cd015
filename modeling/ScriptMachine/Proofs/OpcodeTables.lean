import ScriptMachine.Proofs.OpcodeLayouts

/-!
# Rendered opcode tables

A specification has a table if its bytes are the positions of its opcodes, each once, if nothing of
an opcode is missing, and if opcodes with neighbouring bytes have different names. Names that stand
further apart are not compared.
-/

namespace ScriptMachine.OpcodeTable

/-! ## The parts of a table -/

/-- The parts are those of the given rows. -/
structure Parts.Render (parts : Parts) (rows : List Row) : Prop where
  metadata : List.Forall₂ (fun row line => metadataLine row = .ok line) rows parts.metadata
  variants : List.Forall₂ (fun row lines => variantLines row = .ok lines) rows parts.variants
  listed : parts.listed = rows.map listLine
  decoded : parts.decoded = rows.map decodeLine

/-- The text of a table with the given parts. -/
def Parts.text (parts : Parts) (count : Nat) : String :=
  String.join ((parts.lines count).map (· ++ "\n"))

variable {spec : Spec} {text : String} {opcodes : List OpcodeSpec} {rows : List Row} {parts : Parts}

theorem tableLines_eq_ok_iff {lines : List String} : tableLines rows = .ok lines ↔
    ∃ parts : Parts, parts.Render rows ∧ parts.lines rows.length = lines := by
  unfold tableLines
  simp only [bind_eq_ok, mapM_eq_ok]
  constructor
  · rintro ⟨metadata, shown, variants, declared, done⟩
    exact ⟨_, ⟨shown, declared, rfl, rfl⟩, Except.ok.inj done⟩
  · rintro ⟨⟨metadata, variants, listed, decoded⟩, ⟨shown, declared, rfl, rfl⟩, rfl⟩
    exact ⟨metadata, shown, variants, declared, rfl⟩

/-- A table is rendered from the parts of a layout. -/
theorem generate_eq_ok_iff : generate spec = .ok text ↔ spec.version = 1 ∧
    ∃ (rows : List Row) (parts : Parts), LaidOut spec.opcodes rows ∧ parts.Render rows ∧
      parts.text rows.length = text := by
  unfold generate
  by_cases version : spec.version = 1
  · simp only [version, ne_eq, not_true_eq_false, ↓reduceIte, true_and]
    simp only [bind_eq_ok, layout_eq_ok_iff, tableLines_eq_ok_iff]
    constructor
    · rintro ⟨rows, laid, lines, ⟨parts, render, rfl⟩, done⟩
      exact ⟨rows, parts, laid, render, Except.ok.inj done⟩
    · rintro ⟨rows, parts, laid, render, rfl⟩
      exact ⟨rows, laid, _, ⟨parts, render, rfl⟩, rfl⟩
  · simp [version, bind, Except.bind, throw, throwThe, MonadExceptOf.throw]

/-! ## Specifications with a table -/

/-- The names of the operand shapes. -/
def shapeNames : List String := ["none", "u8", "i8", "rel8", "i32", "rel32", "call"]

theorem isSome_shape?_iff {name : String} : (shape? name).isSome ↔ name ∈ shapeNames := by
  unfold shape? shapeNames
  split <;> simp_all

theorem exists_metadataLine_iff {row : Row} :
    (∃ line, metadataLine row = .ok line) ↔ row.opcode.operands ∈ shapeNames := by
  rw [← isSome_shape?_iff]
  unfold metadataLine
  cases shape? row.opcode.operands <;> simp

theorem exists_variantLines_iff {row : Row} :
    (∃ lines, variantLines row = .ok lines) ↔ row.opcode.doc.isSome := by
  unfold variantLines
  cases row.opcode.doc <;> simp

/-- Rows can be rendered if each has a known shape and a description. -/
theorem exists_render_iff : (∃ parts : Parts, parts.Render rows) ↔
    (∀ row ∈ rows, row.opcode.operands ∈ shapeNames) ∧
      ∀ row ∈ rows, row.opcode.doc.isSome := by
  simp only [← exists_metadataLine_iff, ← exists_variantLines_iff, ← exists_mapM_eq_ok_iff,
    mapM_eq_ok]
  constructor
  · rintro ⟨parts, render⟩
    exact ⟨⟨_, render.metadata⟩, _, render.variants⟩
  · rintro ⟨⟨metadata, shown⟩, variants, declared⟩
    exact ⟨⟨metadata, variants, _, _⟩, shown, declared, rfl, rfl⟩

/-- The position that the byte of an opcode stands for, if it can be read. -/
def OpcodeSpec.position? (opcode : OpcodeSpec) : Option Nat :=
  (parseByte opcode.byte).toOption.map UInt8.toNat

theorem OpcodeSpec.position?_eq_some_iff {opcode : OpcodeSpec} {position : Nat} :
    opcode.position? = some position ↔
      ∃ byte, parseByte opcode.byte = .ok byte ∧ byte.toNat = position := by
  unfold position?
  cases parseByte opcode.byte <;> simp [Except.toOption]

/-- Nothing is missing in a specification. -/
structure Spec.Complete (spec : Spec) : Prop where
  version : spec.version = 1
  /-- Every byte can be read, and the bytes are the positions of the opcodes, each once. -/
  positions : (spec.opcodes.map OpcodeSpec.position?).Perm
    ((List.range spec.opcodes.length).map some)
  shapes : ∀ opcode ∈ spec.opcodes, opcode.operands ∈ shapeNames
  docs : ∀ opcode ∈ spec.opcodes, opcode.doc.isSome

/-- Opcodes with neighbouring bytes have different names. -/
def Spec.NeighboursDiffer (spec : Spec) : Prop :=
  ∀ a ∈ spec.opcodes, ∀ b ∈ spec.opcodes, ∀ position, a.position? = some position →
    b.position? = some (position + 1) → a.name ≠ b.name

theorem Row.Reads.position? {row : Row} (read : row.Reads) :
    row.opcode.position? = some row.byte.toNat :=
  OpcodeSpec.position?_eq_some_iff.2 ⟨row.byte, read, rfl⟩

/-- The bytes of rows are the positions of their opcodes. -/
theorem map_position? (reads : ∀ row ∈ rows, row.Reads) :
    (rows.map Row.opcode).map OpcodeSpec.position? =
      (rows.map fun row => row.byte.toNat).map some := by
  rw [List.map_map, List.map_map]
  exact List.map_congr_left fun row listed => (reads row listed).position?

theorem Arranged.length_eq (arranged : Arranged opcodes rows) : rows.length = opcodes.length := by
  rw [← arranged.complete.length_eq, List.length_map]

theorem Arranged.positions (arranged : Arranged opcodes rows) :
    (opcodes.map OpcodeSpec.position?).Perm ((List.range opcodes.length).map some) := by
  have moved := arranged.complete.map OpcodeSpec.position?
  rw [map_position? arranged.reads, show rows.map _ = _ from arranged.numbered,
    arranged.length_eq] at moved
  exact moved.symm

/-- What holds of every opcode holds of the opcode of every row. -/
theorem Arranged.forall_iff (arranged : Arranged opcodes rows) {good : OpcodeSpec → Prop} :
    (∀ row ∈ rows, good row.opcode) ↔ ∀ opcode ∈ opcodes, good opcode := by
  simp only [← arranged.complete.mem_iff, List.forall_mem_map]

/-- Neighbouring rows have different names if opcodes with neighbouring bytes have. -/
theorem Arranged.isChain_iff (arranged : Arranged spec.opcodes rows) :
    (rows.IsChain fun a b => a.opcode.name ≠ b.opcode.name) ↔ spec.NeighboursDiffer := by
  simp only [List.isChain_iff_getElem, Spec.NeighboursDiffer, ← arranged.forall_iff]
  constructor
  · -- a row stands at the position of its opcode, so neighbouring positions are neighbouring rows
    intro differ a left b right position first second
    rw [(arranged.reads a left).position?, Option.some.injEq] at first
    rw [(arranged.reads b right).position?, Option.some.injEq] at second
    have here := arranged.numbered.getElem?_byte left
    have next := arranged.numbered.getElem?_byte right
    rw [first] at here
    rw [second] at next
    obtain ⟨_, rfl⟩ := List.getElem?_eq_some_iff.1 here
    obtain ⟨inside, rfl⟩ := List.getElem?_eq_some_iff.1 next
    exact differ position inside
  · intro differ position inside
    have place (position : Nat) (inside : position < rows.length) :
        rows[position].opcode.position? = some position := by
      rw [(arranged.reads _ (List.getElem_mem inside)).position?,
        arranged.numbered.toNat_getElem inside]
    exact differ _ (List.getElem_mem _) _ (List.getElem_mem _) position
      (place position (Nat.lt_of_succ_lt inside)) (place (position + 1) inside)

/-- Opcodes can be arranged if their bytes are the positions, each once. -/
theorem exists_arranged (positions : (opcodes.map OpcodeSpec.position?).Perm
    ((List.range opcodes.length).map some)) : ∃ rows, Arranged opcodes rows := by
  have readable : ∀ opcode ∈ opcodes, ∃ byte, parseByte opcode.byte = .ok byte := by
    intro opcode listed
    have placed := positions.mem_iff.1 (List.mem_map_of_mem listed)
    obtain ⟨position, -, placed⟩ := List.mem_map.1 placed
    obtain ⟨byte, read, -⟩ := OpcodeSpec.position?_eq_some_iff.1 placed.symm
    exact ⟨byte, read⟩
  obtain ⟨shuffled, reads, listed⟩ := exists_rows readable
  have bytes : (shuffled.map fun row => row.byte.toNat).Perm (List.range opcodes.length) := by
    rw [← List.map_perm_map_iff (Option.some_injective Nat), ← map_position? reads, listed]
    exact positions
  -- moving the rows puts the bytes in order and every opcode with its byte
  obtain ⟨rows, moved, numbered⟩ := exists_perm_of_map_perm bytes
  have complete : (rows.map Row.opcode).Perm opcodes := listed ▸ moved.map Row.opcode
  refine ⟨rows, fun row here => reads row (moved.mem_iff.1 here), complete, ?_⟩
  rw [Numbered, numbered, ← complete.length_eq, List.length_map]

theorem Spec.neighboursDiffer_of_nodup (distinct : (spec.opcodes.map OpcodeSpec.name).Nodup) :
    spec.NeighboursDiffer := by
  intro a left b right position first second same
  rw [List.inj_on_of_nodup_map distinct left right same, second] at first
  simp at first

/-- A specification has a table exactly if it is complete and opcodes with neighbouring bytes have
different names. In particular it has one if it is complete and no name is repeated. -/
theorem generate_succeeds_iff (spec : Spec) :
    ((∃ text, generate spec = .ok text) ↔ spec.Complete ∧ spec.NeighboursDiffer) ∧
      (spec.Complete → (spec.opcodes.map OpcodeSpec.name).Nodup →
        ∃ text, generate spec = .ok text) := by
  have accepted : (∃ text, generate spec = .ok text) ↔ spec.Complete ∧ spec.NeighboursDiffer := by
    simp only [generate_eq_ok_iff]
    constructor
    · rintro ⟨text, version, rows, parts, laid, render, -⟩
      obtain ⟨shapes, docs⟩ := exists_render_iff.1 ⟨parts, render⟩
      exact ⟨⟨version, laid.positions, laid.forall_iff.1 shapes, laid.forall_iff.1 docs⟩,
        laid.isChain_iff.1 laid.renamed⟩
    · rintro ⟨complete, differ⟩
      obtain ⟨rows, arranged⟩ := exists_arranged complete.positions
      have laid : LaidOut spec.opcodes rows := ⟨arranged, arranged.isChain_iff.2 differ⟩
      obtain ⟨parts, render⟩ := exists_render_iff.2
        ⟨laid.forall_iff.2 complete.shapes, laid.forall_iff.2 complete.docs⟩
      exact ⟨_, complete.version, rows, parts, laid, render, rfl⟩
  exact ⟨accepted, fun complete distinct =>
    accepted.2 ⟨complete, Spec.neighboursDiffer_of_nodup distinct⟩⟩

/-- Two opcodes with the same name, and another one between them. -/
def repeating : Spec where
  version := 1
  opcodes := [
    { name := "A", mnemonic := "a", byte := "0x00", operands := "none", terminator := false,
      doc := some "First." },
    { name := "B", mnemonic := "b", byte := "0x01", operands := "none", terminator := false,
      doc := some "Second." },
    { name := "A", mnemonic := "c", byte := "0x02", operands := "none", terminator := false,
      doc := some "Third." }]

/-- A name that is used twice is accepted, and the table declares it twice, if another opcode
stands between. -/
theorem repeated_name_is_declared_twice :
    ¬ (repeating.opcodes.map OpcodeSpec.name).Nodup ∧
      ∃ parts : Parts, generate repeating = .ok (parts.text 3) ∧ parts.variants = [
        ["    /// First.", "    A = 0x00,"],
        ["    /// Second.", "    B = 0x01,"],
        ["    /// Third.", "    A = 0x02,"]] := by
  let rows : List Row := repeating.opcodes.zipWith (fun opcode byte => ⟨byte, opcode⟩) [0, 1, 2]
  have laid : LaidOut repeating.opcodes rows := layout_eq_ok_iff.1 (by cbv)
  have declared : rows.mapM variantLines = .ok [
        ["    /// First.", "    A = 0x00,"],
        ["    /// Second.", "    B = 0x01,"],
        ["    /// Third.", "    A = 0x02,"]] := by decide
  obtain ⟨parts, render⟩ : ∃ parts : Parts, parts.Render rows := exists_render_iff.2 (by decide)
  exact ⟨by decide, parts, generate_eq_ok_iff.2 ⟨rfl, rows, parts, laid, render, rfl⟩,
    Except.ok.inj ((mapM_eq_ok.2 render.variants).symm.trans declared)⟩

/-- Opcodes in another order than that of their bytes. -/
def unordered : Spec where
  version := 1
  opcodes := [
    { name := "Jump", mnemonic := "jmp", byte := "0X2", operands := "rel8", terminator := true,
      doc := some "Jumps.\nAlways." },
    { name := "Push", mnemonic := "push", byte := "0x00", operands := "i32", terminator := false,
      doc := some "Pushes." },
    { name := "Call", mnemonic := "call", byte := " +1 ", operands := "call", terminator := false,
      doc := some "" }]

theorem generate_succeeds_iff_unordered : unordered.Complete ∧
    (unordered.opcodes.map OpcodeSpec.name).Nodup ∧ ∃ text, generate unordered = .ok text := by
  have complete : unordered.Complete := {
    version := rfl
    positions := by decide +kernel
    shapes := by decide
    docs := by decide }
  have distinct : (unordered.opcodes.map OpcodeSpec.name).Nodup := by decide
  exact ⟨complete, distinct, (generate_succeeds_iff unordered).2 complete distinct⟩

end ScriptMachine.OpcodeTable
