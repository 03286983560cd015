import ScriptMachine.Proofs.OpcodeBytes
import ScriptMachine.Proofs.OpcodeTables

/-!
# Aligned opcode tables

The text of a table consists of lines. Each of its four parts stands between a line that opens it,
the first one of its kind, and the next line that closes it. At every position the parts show the
one opcode of the specification whose byte denotes that position; what each of them shows is written
out here. The order of the specification does not matter.
-/

namespace ScriptMachine

/-! ## Lines of a description -/

namespace Text

/-- The text is cut into these lines: at line feeds, and at line feeds behind carriage returns. What
is left at the end is a line if it is not empty. -/
inductive CutsInto : List Char → List (List Char) → Prop where
  | nothing : CutsInto [] []
  | last {line : List Char} (some_ : line ≠ []) (unbroken : '\n' ∉ line) : CutsInto line [line]
  | feed {line rest : List Char} {lines : List (List Char)} (unbroken : '\n' ∉ line)
    (plain : line.getLast? ≠ some '\r') (more : CutsInto rest lines) :
    CutsInto (line ++ '\n' :: rest) (line :: lines)
  | carriage {line rest : List Char} {lines : List (List Char)} (unbroken : '\n' ∉ line)
    (more : CutsInto rest lines) :
    CutsInto (line ++ '\r' :: '\n' :: rest) (line :: lines)

/-- Behind the part of a line the text is cut into what its lines are. -/
theorem cutsInto_linesFrom {line : List Char} (unbroken : '\n' ∉ line) (text : List Char) :
    CutsInto (line.reverse ++ text) (linesFrom line text) := by
  fun_induction linesFrom line text with
  | case1 line empty =>
    rw [List.isEmpty_iff.1 empty]
    exact .nothing
  | case2 line some_ =>
    rw [List.append_nil]
    exact .last (by simpa using some_) (by simpa using unbroken)
  | case3 line rest ih =>
    have more := ih (by simp)
    rw [List.reverse_nil, List.nil_append] at more
    unfold endLine
    split
    · rename_i line
      rw [List.reverse_cons, List.append_assoc]
      exact .carriage (by simpa using fun inside => unbroken (List.mem_cons_of_mem _ inside)) more
    · rename_i plain
      refine .feed (by simpa using unbroken) ?_ more
      rw [List.getLast?_reverse]
      intro ends
      obtain ⟨rest, rfl⟩ := List.head?_eq_some_iff.1 ends
      exact plain rest rfl
  | case4 line c rest joins ih =>
    have more := ih (by simpa using ⟨fun feed => joins feed.symm, unbroken⟩)
    rwa [List.reverse_cons, List.append_assoc] at more

end Text

namespace OpcodeTable

/-! ## What a table shows -/

/-- The entries stand between the first line that opens them and the next line that closes them. -/
def Encloses (opening closing : String) (entries lines : List String) : Prop :=
  ∃ before after, lines = before ++ opening :: (entries ++ closing :: after) ∧
    opening ∉ before ∧ closing ∉ entries

/-- The parts stand in the lines of a table with this many opcodes. -/
structure Parts.StandIn (parts : Parts) (count : Nat) (lines : List String) : Prop where
  metadata : Encloses s!"static OPCODE_INFO_BY_BYTE: [OpcodeInfo; {count}] = [" "];"
    parts.metadata lines
  variants : Encloses "pub enum Opcode \x7b" "\x7d" parts.variants.flatten lines
  listed : Encloses s!"    pub const ALL: [Self; {count}] = [" "    ];" parts.listed lines
  decoded : Encloses "    pub fn from_u8(b: u8) -> Option<Self> \x7b"
    "            _ => return None," ("        Some(match b \x7b" :: parts.decoded) lines

/-- Every part has an entry for each position. -/
structure Parts.Sized (parts : Parts) (count : Nat) : Prop where
  metadata : parts.metadata.length = count
  variants : parts.variants.length = count
  listed : parts.listed.length = count
  decoded : parts.decoded.length = count

/-- The operand shapes, as a specification and as a table name them. -/
def shapeVariants : List (String × String) := [
  ("none", "None"), ("u8", "U8"), ("i8", "I8"), ("rel8", "Rel8"), ("i32", "I32"),
  ("rel32", "Rel32"), ("call", "Call")]

/-- The numeral is the mark of hexadecimal numerals with the two digits of the position. -/
def Writes (numeral : String) (position : Nat) : Prop :=
  ∃ high low, "0123456789ABCDEF".toList[position / 16]? = some high ∧
    "0123456789ABCDEF".toList[position % 16]? = some low ∧
    numeral = String.ofList ['0', 'x', high, low]

/-- Every part shows the opcode at the position, which this is the numeral of. -/
structure Parts.Shows (parts : Parts) (position : Nat) (numeral : String) (opcode : OpcodeSpec) :
    Prop where
  written : Writes numeral position
  /-- The numeral could be the byte in a specification as well. -/
  denotes : Denotes numeral position
  metadata : ∃ shape, (opcode.operands, shape) ∈ shapeVariants ∧
    parts.metadata[position]? = some ("    OpcodeInfo \x7b mnemonic: \"" ++ opcode.mnemonic
      ++ "\", shape: OperandShape::" ++ shape ++ ", is_terminator: "
      ++ (if opcode.terminator then "true" else "false") ++ " \x7d, // " ++ numeral ++ " "
      ++ opcode.name)
  /-- The declaration stands below the description, and has the position as its value. -/
  variant : ∃ doc comments, opcode.doc = some doc ∧ Text.CutsInto doc.toList comments ∧
    parts.variants[position]? = some (comments.map
        (fun line => if line = [] then "    ///" else "    /// " ++ String.ofList line)
      ++ ["    " ++ opcode.name ++ " = " ++ numeral ++ ","])
  listed : parts.listed[position]? = some ("        Self::" ++ opcode.name ++ ",")
  decoded : parts.decoded[position]? =
    some ("            " ++ numeral ++ " => Self::" ++ opcode.name ++ ",")

/-- The opcode is the one whose byte denotes the position. -/
def Spec.Assigns (spec : Spec) (position : Nat) (opcode : OpcodeSpec) : Prop :=
  ∃ before after, spec.opcodes = before ++ opcode :: after ∧ Denotes opcode.byte position ∧
    ∀ other ∈ before ++ after, ¬Denotes other.byte position

variable {spec : Spec} {text : String} {opcodes : List OpcodeSpec} {rows : List Row} {parts : Parts}
  {row : Row} {line : String} {count n : Nat}

/-! ## Where the parts stand -/

/-- The bytes that a line begins with. -/
def leading (n : Nat) (line : String) : List UInt8 := line.toByteArray.data.toList.take n

/-- What follows the beginning of a line does not matter for it. -/
theorem leading_append {start : String} (long : n ≤ start.utf8ByteSize) (rest : String) :
    leading n (start ++ rest) = leading n start := by
  unfold leading
  rw [String.toByteArray_append, ByteArray.data_append, Array.toList_append,
    List.take_append_of_le_length]
  simpa using long

/-- The byte that a line ends with. -/
def trailing (line : String) : Option UInt8 := line.toByteArray.data.toList.getLast?

/-- What stands before the end of a line does not matter for it. -/
theorem trailing_append {last : String} (some_ : (trailing last).isSome) (start : String) :
    trailing (start ++ last) = trailing last := by
  unfold trailing at some_ ⊢
  rw [String.toByteArray_append, ByteArray.data_append, Array.toList_append, List.getLast?_append]
  exact Option.or_of_isSome some_

theorem leading_metadataLine (shown : metadataLine row = .ok line) :
    leading 12 line = leading 12 "    OpcodeInfo" := by
  unfold metadataLine at shown
  split at shown <;> cases shown
  simp only [String.append_assoc]
  exact (leading_append (by decide) _).trans (by decide)

theorem leading_docLine (line : String) : leading 5 (docLine line) = leading 5 "    ///" := by
  unfold docLine
  split
  · rfl
  · exact (leading_append (by decide) _).trans (by decide)

theorem leading_listLine (row : Row) : leading 12 (listLine row) = leading 12 "        Self::" := by
  unfold listLine
  rw [String.append_assoc]
  exact leading_append (by decide) _

/-- The entries of a list that are related to those of another stand at the same positions. -/
theorem exists_getElem?_of_forall₂ {α β : Type} {R : α → β → Prop} {left : List α} {right : List β}
    (each : List.Forall₂ R left right) {position : Nat} {a : α} (here : left[position]? = some a) :
    ∃ b, R a b ∧ right[position]? = some b := by
  obtain ⟨inside, rfl⟩ := List.getElem?_eq_some_iff.1 here
  have inside' := each.length_eq ▸ inside
  exact ⟨right[position], each.get inside inside', List.getElem?_eq_getElem inside'⟩

/-- The decoding of a byte begins with a numeral. -/
theorem leading_decodeLine (row : Row) :
    leading 13 (decodeLine row) = leading 13 "            0x" := by
  have numeral : Numeral.hexByte row.byte = "0x" ++ String.ofList
      [Numeral.digit (row.byte.toNat / 16), Numeral.digit (row.byte.toNat % 16)] := by
    rw [← String.toList_inj]
    simp [Numeral.hexByte]
  unfold decodeLine
  rw [numeral]
  simp only [String.append_assoc]
  rw [← String.append_assoc]
  exact (leading_append (by decide) _).trans (by decide)

/-- A line does not stand among lines that begin differently. -/
theorem not_mem_of_leading (n : Nat) {lines : List String}
    (differ : ∀ other ∈ lines, leading n other ≠ leading n line) : line ∉ lines :=
  fun inside => differ line inside rfl

/-- Lines that begin differently are not the same. -/
theorem ne_of_leading {other : String} (n : Nat) (differs : leading n line ≠ leading n other) :
    line ≠ other := fun same => differs (congrArg (leading n) same)

/-- A line that shows a number begins with what stands before the number. -/
theorem leading_number {start last : String} (long : n ≤ start.utf8ByteSize) :
    leading n (toString start ++ toString count ++ toString last) = leading n start := by
  rw [String.append_assoc]
  exact leading_append long _

/-- Among the lines before the parts only one shows a number. -/
theorem not_mem_preamble (fixed : ∀ other ∈ preamble 0, leading 12 other ≠ leading 12 line)
    (number : leading 12 "pub const OPCODE_COUNT" ≠ leading 12 line) : line ∉ preamble count := by
  have same : preamble count =
    (preamble 0).set 36 s!"pub const OPCODE_COUNT: usize = {count};" := rfl
  rw [same]
  intro inside
  rcases List.mem_or_eq_of_mem_set inside with other | rfl
  · exact fixed line other rfl
  · rw [leading_number (by decide)] at number
    exact number (by decide)

theorem Parts.Render.not_mem_metadata (render : parts.Render rows)
    (differs : leading 12 "    OpcodeInfo" ≠ leading 12 line) : line ∉ parts.metadata := by
  refine not_mem_of_leading 12 fun other inside => ?_
  obtain ⟨position, here⟩ := List.mem_iff_getElem?.1 inside
  obtain ⟨row, shown, -⟩ := exists_getElem?_of_forall₂ render.metadata.flip here
  rwa [leading_metadataLine shown]

theorem Parts.Render.not_mem_variants (render : parts.Render rows)
    (comment : leading 5 "    ///" ≠ leading 5 line)
    (declaration : trailing "," ≠ trailing line) : line ∉ parts.variants.flatten := by
  intro inside
  obtain ⟨lines, listed, inside⟩ := List.mem_flatten.1 inside
  obtain ⟨position, here⟩ := List.mem_iff_getElem?.1 listed
  obtain ⟨row, declared, -⟩ := exists_getElem?_of_forall₂ render.variants.flip here
  unfold variantLines at declared
  split at declared <;> cases declared
  rcases List.mem_append.1 inside with described | declares
  · obtain ⟨text, -, rfl⟩ := List.mem_map.1 described
    exact comment (leading_docLine text).symm
  · rw [List.mem_singleton.1 declares] at declaration
    exact declaration (trailing_append (by decide) _).symm

theorem Parts.Render.not_mem_listed (render : parts.Render rows)
    (differs : leading 12 "        Self::" ≠ leading 12 line) : line ∉ parts.listed := by
  refine not_mem_of_leading 12 fun other inside => ?_
  rw [render.listed] at inside
  obtain ⟨row, -, rfl⟩ := List.mem_map.1 inside
  rwa [leading_listLine]

theorem leading_metadataOpening :
    leading 12 s!"static OPCODE_INFO_BY_BYTE: [OpcodeInfo; {count}] = [" =
      leading 12 "static OPCODE_INFO_BY_BYTE" :=
  (leading_number (by decide)).trans (by decide)

theorem leading_listOpening : leading 12 s!"    pub const ALL: [Self; {count}] = [" =
    leading 12 "    pub const ALL" :=
  (leading_number (by decide)).trans (by decide)

/-- The lines between the metadata and the variants. -/
def metadataClosing : List String := [
  "];", "", "/// Bytecode opcode byte.", "#[derive(Copy, Clone, Debug, PartialEq, Eq, Hash)]",
  "#[repr(u8)]"]

/-- The lines between the variants and the list. -/
def variantsClosing : List String := [
  "\x7d", "", "impl Opcode \x7b", "    /// Every opcode, in byte order."]

/-- The lines between the list and the decoding. -/
def listClosing : List String := [
  "    ];", "", "    /// Decodes an opcode byte.", "    #[must_use]"]

/-- The lines before the variants. -/
def Parts.beforeVariants (parts : Parts) (count : Nat) : List String :=
  preamble count ++ s!"static OPCODE_INFO_BY_BYTE: [OpcodeInfo; {count}] = [" ::
    (parts.metadata ++ metadataClosing)

/-- The lines before the list. -/
def Parts.beforeList (parts : Parts) (count : Nat) : List String :=
  parts.beforeVariants count ++
    "pub enum Opcode \x7b" :: (parts.variants.flatten ++ variantsClosing)

/-- The lines before the decoding. -/
def Parts.beforeDecoding (parts : Parts) (count : Nat) : List String :=
  parts.beforeList count ++ s!"    pub const ALL: [Self; {count}] = [" ::
    (parts.listed ++ listClosing)

/-- How the lines before the variants begin. -/
def startsBeforeVariants : List String :=
  preamble 0 ++ ["pub const OPCODE_COUNT", "static OPCODE_INFO_BY_BYTE", "    OpcodeInfo"]
    ++ metadataClosing

theorem Parts.Render.not_mem_beforeVariants (render : parts.Render rows)
    (differs : ∀ start ∈ startsBeforeVariants, leading 12 start ≠ leading 12 line) :
    line ∉ parts.beforeVariants count := by
  simp only [startsBeforeVariants, List.mem_append, List.mem_cons, List.not_mem_nil, or_false,
    or_imp, forall_and, forall_eq] at differs
  obtain ⟨⟨fixed, number, opening, metadata⟩, closing⟩ := differs
  simp only [beforeVariants, List.mem_append, List.mem_cons, not_or]
  refine ⟨not_mem_preamble fixed number, ?_, render.not_mem_metadata metadata,
    not_mem_of_leading 12 closing⟩
  exact (ne_of_leading 12 (by rwa [leading_metadataOpening])).symm

/-- How the lines before the list begin, the variants apart. -/
def startsBeforeList : List String :=
  startsBeforeVariants ++ "pub enum Opcode \x7b" :: variantsClosing

theorem Parts.Render.not_mem_beforeList (render : parts.Render rows)
    (differs : ∀ start ∈ startsBeforeList, leading 12 start ≠ leading 12 line)
    (comment : leading 5 "    ///" ≠ leading 5 line)
    (declaration : trailing "," ≠ trailing line) : line ∉ parts.beforeList count := by
  simp only [startsBeforeList, List.mem_append, List.mem_cons, or_imp, forall_and,
    forall_eq] at differs
  obtain ⟨before, opening, closing⟩ := differs
  simp only [beforeList, List.mem_append, List.mem_cons, not_or]
  exact ⟨render.not_mem_beforeVariants before, (ne_of_leading 12 opening).symm,
    render.not_mem_variants comment declaration, not_mem_of_leading 12 closing⟩

theorem Parts.Render.metadata_enclosed (render : parts.Render rows) :
    Encloses s!"static OPCODE_INFO_BY_BYTE: [OpcodeInfo; {count}] = [" "];" parts.metadata
      (parts.lines count) := by
  refine ⟨preamble count, ?after, ?same, ?opening, ?closing⟩
  case same =>
    simp only [lines, List.append_assoc, List.cons_append, List.nil_append]
    rfl
  case opening =>
    refine not_mem_preamble ?_ ?_
    all_goals rw [leading_metadataOpening]; decide +kernel
  case closing => exact render.not_mem_metadata (by decide)

theorem Parts.Render.variants_enclosed (render : parts.Render rows) :
    Encloses "pub enum Opcode \x7b" "\x7d" parts.variants.flatten (parts.lines count) := by
  refine ⟨parts.beforeVariants count, ?after, ?same, ?opening, ?closing⟩
  case same =>
    simp only [lines, beforeVariants, metadataClosing, List.append_assoc, List.cons_append,
      List.nil_append]
    rfl
  case opening => exact render.not_mem_beforeVariants (by decide +kernel)
  case closing => exact render.not_mem_variants (by decide) (by decide)

theorem Parts.Render.listed_enclosed (render : parts.Render rows) :
    Encloses s!"    pub const ALL: [Self; {count}] = [" "    ];" parts.listed
      (parts.lines count) := by
  refine ⟨parts.beforeList count, ?after, ?same, ?opening, ?closing⟩
  case same =>
    simp only [lines, beforeList, variantsClosing, beforeVariants, metadataClosing,
      List.append_assoc, List.cons_append, List.nil_append]
    rfl
  case opening =>
    refine render.not_mem_beforeList ?_ ?_ ?_
    · rw [leading_listOpening]
      decide +kernel
    · rw [leading_number (by decide)]
      decide
    · rw [trailing_append (by decide)]
      decide
  case closing => exact render.not_mem_listed (by decide)

theorem Parts.Render.decoded_enclosed (render : parts.Render rows) :
    Encloses "    pub fn from_u8(b: u8) -> Option<Self> \x7b" "            _ => return None,"
      ("        Some(match b \x7b" :: parts.decoded) (parts.lines count) := by
  refine ⟨parts.beforeDecoding count, ?after, ?same, ?opening, ?closing⟩
  case same =>
    simp only [lines, beforeDecoding, listClosing, beforeList, variantsClosing, beforeVariants,
      metadataClosing, List.append_assoc, List.cons_append, List.nil_append]
    rfl
  case opening =>
    simp only [beforeDecoding, List.mem_append, List.mem_cons, not_or]
    refine ⟨render.not_mem_beforeList (by decide +kernel) (by decide) (by decide),
      (ne_of_leading 12 ?_).symm, render.not_mem_listed (by decide),
      not_mem_of_leading 12 (by decide)⟩
    rw [leading_listOpening]
    decide
  case closing =>
    refine List.not_mem_cons_of_ne_of_not_mem (by decide)
      (not_mem_of_leading 13 fun other inside => ?_)
    rw [render.decoded] at inside
    obtain ⟨row, -, rfl⟩ := List.mem_map.1 inside
    rw [leading_decodeLine]
    decide

/-- The parts stand in the lines of their table. -/
theorem Parts.Render.standIn (render : parts.Render rows) :
    parts.StandIn count (parts.lines count) where
  metadata := render.metadata_enclosed
  variants := render.variants_enclosed
  listed := render.listed_enclosed
  decoded := render.decoded_enclosed

/-! ## What the parts show -/

theorem Parts.Render.sized (render : parts.Render rows) : parts.Sized rows.length where
  metadata := render.metadata.length_eq.symm
  variants := render.variants.length_eq.symm
  listed := by rw [render.listed, List.length_map]
  decoded := by rw [render.decoded, List.length_map]

/-- A byte is written as the numeral of its position. -/
theorem writes_hexByte (byte : UInt8) : Writes (Numeral.hexByte byte) byte.toNat := by
  have digits : ∀ n < 16, "0123456789ABCDEF".toList[n]? = some (Numeral.digit n) := by decide
  have small := byte.toNat_lt
  exact ⟨_, _, digits _ (by omega), digits _ (by omega), rfl⟩

theorem mem_shapeVariants {name : String} {shape : OperandShape}
    (named : shape? name = some shape) : (name, shape.name) ∈ shapeVariants := by
  unfold shape? at named
  split at named <;> cases named <;> decide

/-- The metadata of a row, written out. -/
theorem metadataLine_eq (shown : metadataLine row = .ok line) : ∃ shape,
    (row.opcode.operands, shape) ∈ shapeVariants ∧ line = "    OpcodeInfo \x7b mnemonic: \""
      ++ row.opcode.mnemonic ++ "\", shape: OperandShape::" ++ shape ++ ", is_terminator: "
      ++ (if row.opcode.terminator then "true" else "false") ++ " \x7d, // "
      ++ Numeral.hexByte row.byte ++ " " ++ row.opcode.name := by
  unfold metadataLine at shown
  split at shown
  · cases shown
  · rename_i shape named
    refine ⟨shape.name, mem_shapeVariants named, ?_⟩
    rw [← Except.ok.inj shown]
    cases row.opcode.terminator <;> rfl

/-- The description and the declaration of a row, written out. -/
theorem variantLines_eq {lines : List String} (declared : variantLines row = .ok lines) :
    ∃ doc comments, row.opcode.doc = some doc ∧ Text.CutsInto doc.toList comments ∧
      lines = comments.map
          (fun line => if line = [] then "    ///" else "    /// " ++ String.ofList line)
        ++ ["    " ++ row.opcode.name ++ " = " ++ Numeral.hexByte row.byte ++ ","] := by
  unfold variantLines at declared
  split at declared
  · cases declared
  · rename_i doc described
    refine ⟨doc, _, described, Text.cutsInto_linesFrom List.not_mem_nil doc.toList, ?_⟩
    rw [← Except.ok.inj declared, Text.lines, List.map_map]
    congr 2
    funext line
    simp [docLine]

/-- Every part shows a row at the position that is its byte. -/
theorem Parts.Render.shows (render : parts.Render rows) (numbered : Numbered rows)
    (listed : row ∈ rows) :
    parts.Shows row.byte.toNat (Numeral.hexByte row.byte) row.opcode := by
  have here := numbered.getElem?_byte listed
  obtain ⟨line, shown, found⟩ := exists_getElem?_of_forall₂ render.metadata here
  obtain ⟨lines, declared, found'⟩ := exists_getElem?_of_forall₂ render.variants here
  obtain ⟨shape, named, rfl⟩ := metadataLine_eq shown
  obtain ⟨doc, comments, described, cut, rfl⟩ := variantLines_eq declared
  exact {
    written := writes_hexByte row.byte
    denotes := denotes_hexByte row.byte
    metadata := ⟨shape, named, found⟩
    variant := ⟨doc, comments, described, cut, found'⟩
    listed := by
      rw [render.listed, List.getElem?_map, here]
      rfl
    decoded := by
      rw [render.decoded, List.getElem?_map, here]
      rfl }

/-! ## Alignment -/

/-- The byte of an opcode denotes its position. -/
theorem OpcodeSpec.position?_eq_some_iff_denotes {opcode : OpcodeSpec} {position : Nat} :
    opcode.position? = some position ↔ Denotes opcode.byte position := by
  rw [position?_eq_some_iff]
  constructor
  · rintro ⟨byte, read, rfl⟩
    exact parseByte_eq_ok_iff.1 read
  · intro denotes
    have small : position < 256 := denotes.lt
    have value : (UInt8.ofNat position).toNat = position := UInt8.toNat_ofNat_of_lt small
    exact ⟨UInt8.ofNat position, parseByte_eq_ok_iff.2 (by rwa [value]), value⟩

/-- Only the opcode of a row has the position of the row. -/
theorem Arranged.filter_position? (arranged : Arranged opcodes rows) (listed : row ∈ rows) :
    opcodes.filter (fun opcode => opcode.position? = some row.byte.toNat) = [row.opcode] := by
  have alone : rows.filter (fun other => other.opcode.position? = some row.byte.toNat) = [row] := by
    have same : ∀ other ∈ rows,
        decide (other.opcode.position? = some row.byte.toNat) = decide (other = row) := by
      intro other here
      rw [(arranged.reads other here).position?, decide_eq_decide, Option.some.injEq,
        UInt8.toNat_inj]
      exact ⟨arranged.numbered.eq_of_byte here listed, congrArg Row.byte⟩
    rw [List.filter_congr same, List.filter_eq,
      List.count_eq_one_of_mem arranged.numbered.nodup listed, List.replicate_one]
  have image : (rows.map Row.opcode).filter (fun opcode => opcode.position? = some row.byte.toNat) =
      [row.opcode] := by
    rw [List.filter_map]
    exact congrArg (List.map Row.opcode) alone
  exact (List.singleton_perm.1 (image ▸ arranged.complete.filter _)).symm

/-- The opcode of a row is the one whose byte denotes the position of the row. -/
theorem Arranged.assigns (arranged : Arranged spec.opcodes rows) (listed : row ∈ rows) :
    spec.Assigns row.byte.toNat row.opcode := by
  obtain ⟨before, after, same, earlier, found, later⟩ :=
    List.filter_eq_cons_iff.1 (arranged.filter_position? listed)
  simp only [decide_eq_true_eq, OpcodeSpec.position?_eq_some_iff_denotes,
    List.filter_eq_nil_iff] at earlier found later
  exact ⟨before, after, same, found, fun other inside =>
    (List.mem_append.1 inside).elim (earlier other) (later other)⟩

/-- The order of the specification does not matter. -/
theorem generate_eq_ok_iff_of_perm (same : opcodes.Perm spec.opcodes) :
    generate { spec with opcodes } = .ok text ↔ generate spec = .ok text := by
  simp only [generate_eq_ok_iff, laidOut_iff_of_perm same]

/-- In every table all four parts have an entry for each position, and show there the one opcode
whose byte denotes the position. The table is the same in whatever order the opcodes are
specified. -/
theorem tables_aligned (spec : Spec) (text : String) :
    (generate spec = .ok text → ∃ (parts : Parts) (lines : List String),
      text = String.join (lines.map (· ++ "\n")) ∧ parts.StandIn spec.opcodes.length lines ∧
      parts.Sized spec.opcodes.length ∧
      ∀ position < spec.opcodes.length, ∃ opcode numeral, spec.Assigns position opcode ∧
        parts.Shows position numeral opcode) ∧
    ∀ opcodes, opcodes.Perm spec.opcodes →
      (generate { spec with opcodes } = .ok text ↔ generate spec = .ok text) := by
  refine ⟨fun rendered => ?_, fun opcodes same => generate_eq_ok_iff_of_perm same⟩
  obtain ⟨-, rows, parts, laid, render, rfl⟩ := generate_eq_ok_iff.1 rendered
  rw [← laid.length_eq]
  refine ⟨parts, parts.lines rows.length, rfl, render.standIn, render.sized,
    fun position inside => ?_⟩
  obtain ⟨place, listed⟩ : rows[position].byte.toNat = position ∧ rows[position] ∈ rows :=
    ⟨laid.numbered.toNat_getElem inside, List.getElem_mem inside⟩
  rw [← place]
  exact ⟨_, _, laid.assigns listed, render.shows laid.numbered listed⟩

/-- Three opcodes that are specified in another order than that of their bytes have the same table
as in the reverse order. -/
theorem tables_aligned_unordered : ∃ text, generate unordered = .ok text ∧
    (∃ (parts : Parts) (lines : List String),
      text = String.join (lines.map (· ++ "\n")) ∧ parts.StandIn 3 lines ∧ parts.Sized 3 ∧
      ∀ position < 3, ∃ opcode numeral, unordered.Assigns position opcode ∧
        parts.Shows position numeral opcode) ∧
    unordered.opcodes.reverse.Perm unordered.opcodes ∧
    generate { unordered with opcodes := unordered.opcodes.reverse } = .ok text := by
  let rows : List Row := (unordered.opcodes.rotate 1).zipWith (fun opcode byte => ⟨byte, opcode⟩)
    [0, 1, 2]
  have laid : LaidOut unordered.opcodes rows := layout_eq_ok_iff.1 (by cbv)
  obtain ⟨parts, render⟩ : ∃ parts : Parts, parts.Render rows := exists_render_iff.2 (by decide)
  have rendered := generate_eq_ok_iff.2 ⟨rfl, rows, parts, laid, render, rfl⟩
  obtain ⟨aligned, moved⟩ := tables_aligned unordered (parts.text 3)
  have same := List.reverse_perm unordered.opcodes
  exact ⟨_, rendered, aligned rendered, same, (moved _ same).2 rendered⟩

end OpcodeTable

end ScriptMachine
