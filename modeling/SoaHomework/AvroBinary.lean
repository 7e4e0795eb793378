import Mathlib.Algebra.Group.Int.Defs
import Mathlib.Data.List.Basic

/-!
# The Avro binary encoding

Flat records of strings, enumerations, integers and nullable fields in the binary
encoding of Avro: integers as zigzag varints, strings behind their length, an
enumeration as the position of its symbol, a nullable value behind the branch of
its union. A datum that conforms to its type is read back by that type
(`decode_encode`), whatever follows it.
-/

namespace AvroBinary

abbrev Bytes := List UInt8

/-! ## Integers -/

/-- Groups of seven bits, the lowest first; all but the last are marked. -/
def varintGroups : Nat → Nat → Bytes
  | 0, _ => []
  | groups + 1, n =>
      if n < 128 then [n.toUInt8]
      else (n % 128 + 128).toUInt8 :: varintGroups groups (n / 128)

def varint (n : Nat) : Bytes := varintGroups (n + 1) n

def readVarint : Bytes → Option (Nat × Bytes)
  | [] => none
  | byte :: rest =>
      if byte.toNat < 128 then some (byte.toNat, rest)
      else (readVarint rest).map fun (n, rest) => (byte.toNat - 128 + 128 * n, rest)

theorem toNat_toUInt8 {n : Nat} (h : n < 256) : n.toUInt8.toNat = n :=
  UInt8.toNat_ofNat_of_lt' h

theorem readVarint_groups {groups n : Nat} (h : n < groups) (rest : Bytes) :
    readVarint (varintGroups groups n ++ rest) = some (n, rest) := by
  induction groups generalizing n with
  | zero => exact absurd h (Nat.not_lt_zero n)
  | succ groups ih =>
      unfold varintGroups
      split
      · rename_i hsmall
        have hbyte : n.toUInt8.toNat = n := toNat_toUInt8 (by omega)
        simp [readVarint, hbyte, hsmall]
      · rename_i hlarge
        have hbyte : (n % 128 + 128).toUInt8.toNat = n % 128 + 128 :=
          toNat_toUInt8 (by omega)
        have hmarked : ¬(n % 128 + 128 < 128) := by omega
        rw [List.cons_append, readVarint, hbyte, if_neg hmarked, ih (by omega)]
        simp only [Option.map_some, Option.some.injEq, Prod.mk.injEq, and_true]
        omega

theorem readVarint_varint (n : Nat) (rest : Bytes) :
    readVarint (varint n ++ rest) = some (n, rest) :=
  readVarint_groups (Nat.lt_succ_self n) rest

/-- Integers of small magnitude become small numbers. -/
def zigzag : Int → Nat
  | .ofNat n => 2 * n
  | .negSucc n => 2 * n + 1

def unzigzag (n : Nat) : Int := if n % 2 = 0 then .ofNat (n / 2) else .negSucc (n / 2)

theorem unzigzag_zigzag (n : Int) : unzigzag (zigzag n) = n := by
  cases n with
  | ofNat n =>
      have hmod : 2 * n % 2 = 0 := by omega
      have hdiv : 2 * n / 2 = n := by omega
      rw [zigzag, unzigzag, if_pos hmod, hdiv]
  | negSucc n =>
      have hmod : ¬((2 * n + 1) % 2 = 0) := by omega
      have hdiv : (2 * n + 1) / 2 = n := by omega
      rw [zigzag, unzigzag, if_neg hmod, hdiv]

def writeInteger (n : Int) : Bytes := varint (zigzag n)

def readInteger (bytes : Bytes) : Option (Int × Bytes) :=
  (readVarint bytes).map fun (n, rest) => (unzigzag n, rest)

theorem readInteger_write (n : Int) (rest : Bytes) :
    readInteger (writeInteger n ++ rest) = some (n, rest) := by
  simp only [readInteger, writeInteger, readVarint_varint, Option.map_some, unzigzag_zigzag]

/-! ## Strings -/

def writeString (text : String) : Bytes :=
  writeInteger text.toByteArray.data.size ++ text.toByteArray.data.toList

def readString (bytes : Bytes) : Option (String × Bytes) :=
  (readInteger bytes).bind fun (size, rest) =>
    if size.toNat ≤ rest.length then
      (String.fromUTF8? ⟨(rest.take size.toNat).toArray⟩).map fun text =>
        (text, rest.drop size.toNat)
    else none

theorem readString_write (text : String) (rest : Bytes) :
    readString (writeString text ++ rest) = some (text, rest) := by
  have hsize : text.toByteArray.data.size = text.toByteArray.data.toList.length := rfl
  have hvalid : text.toByteArray.IsValidUTF8 := text.isValidUTF8
  rw [readString, writeString, List.append_assoc, readInteger_write, Option.bind_some]
  simp only [Int.toNat_natCast, hsize, List.length_append, Nat.le_add_right, if_true,
    List.take_left, List.drop_left, Array.toArray_toList]
  have hread : String.fromUTF8? text.toByteArray = some text := by
    rw [String.fromUTF8?, dif_pos hvalid]
    rfl
  rw [show (⟨text.toByteArray.data⟩ : ByteArray) = text.toByteArray from rfl, hread]
  rfl

/-! ## Types -/

inductive AvroType where
  | string
  | int
  | long
  | enum (symbols : List String)
  /-- The union of `null` and the type. -/
  | optional (type : AvroType)
deriving DecidableEq, Repr

inductive Datum where
  | null
  | number (value : Int)
  | text (value : String)
deriving DecidableEq, Repr

namespace AvroType

def conforms : AvroType → Datum → Bool
  | .string, .text _ => true
  | .int, .number n => decide (-2 ^ 31 ≤ n) && decide (n < 2 ^ 31)
  | .long, .number n => decide (-2 ^ 63 ≤ n) && decide (n < 2 ^ 63)
  | .enum symbols, .text symbol => decide (symbol ∈ symbols)
  | .optional _, .null => true
  | .optional type, .number n => type.conforms (.number n)
  | .optional type, .text value => type.conforms (.text value)
  | _, _ => false

def encode : AvroType → Datum → Bytes
  | .string, .text value => writeString value
  | .int, .number n => writeInteger n
  | .long, .number n => writeInteger n
  | .enum symbols, .text symbol => writeInteger (symbols.idxOf symbol)
  | .optional _, .null => writeInteger 0
  | .optional type, .number n => writeInteger 1 ++ type.encode (.number n)
  | .optional type, .text value => writeInteger 1 ++ type.encode (.text value)
  | _, _ => []

def decode : AvroType → Bytes → Option (Datum × Bytes)
  | .string, bytes => (readString bytes).map fun (value, rest) => (.text value, rest)
  | .int, bytes => (readInteger bytes).map fun (n, rest) => (.number n, rest)
  | .long, bytes => (readInteger bytes).map fun (n, rest) => (.number n, rest)
  | .enum symbols, bytes =>
      (readInteger bytes).bind fun (n, rest) =>
        symbols[n.toNat]?.map fun symbol => (.text symbol, rest)
  | .optional type, bytes =>
      (readInteger bytes).bind fun (branch, rest) =>
        if branch = 0 then some (.null, rest)
        else if branch = 1 then type.decode rest
        else none

theorem decode_encode {type : AvroType} {datum : Datum} (h : type.conforms datum = true)
    (rest : Bytes) : type.decode (type.encode datum ++ rest) = some (datum, rest) := by
  induction type with
  | string =>
      cases datum with
      | text value => rw [encode, decode, readString_write, Option.map_some]
      | _ => cases h
  | int =>
      cases datum with
      | number n => rw [encode, decode, readInteger_write, Option.map_some]
      | _ => cases h
  | long =>
      cases datum with
      | number n => rw [encode, decode, readInteger_write, Option.map_some]
      | _ => cases h
  | enum symbols =>
      cases datum with
      | text symbol =>
          have hmem : symbol ∈ symbols := of_decide_eq_true h
          have hget : symbols[symbols.idxOf symbol]? = some symbol :=
            List.getElem?_idxOf hmem
          rw [encode, decode, readInteger_write, Option.bind_some]
          simp only [Int.toNat_natCast, hget, Option.map_some]
      | _ => cases h
  | optional type ih =>
      have hbranch : ¬((1 : Int) = 0) := by decide
      cases datum with
      | null => simp only [encode, decode, readInteger_write, Option.bind_some, if_true]
      | number n =>
          simp only [encode, decode, List.append_assoc, readInteger_write, Option.bind_some,
            hbranch, if_false, if_true]
          exact ih h
      | text value =>
          simp only [encode, decode, List.append_assoc, readInteger_write, Option.bind_some,
            hbranch, if_false, if_true]
          exact ih h

end AvroType

/-! ## Records -/

/-- The fields of a record, in their order. -/
abbrev RecordSchema := List (String × AvroType)

/-- A record, as a dictionary. -/
abbrev Record := List (String × Datum)

def conforms (schema : RecordSchema) (record : Record) : Bool :=
  schema.all fun field => (record.lookup field.1).any field.2.conforms

def encode (schema : RecordSchema) (record : Record) : Bytes :=
  schema.flatMap fun field => (record.lookup field.1).elim [] field.2.encode

def decode : RecordSchema → Bytes → Option (Record × Bytes)
  | [], bytes => some ([], bytes)
  | field :: schema, bytes =>
      (field.2.decode bytes).bind fun (datum, rest) =>
        (decode schema rest).map fun (record, rest) => ((field.1, datum) :: record, rest)

/-- What the record holds of the fields of the schema. -/
def project (schema : RecordSchema) (record : Record) : Record :=
  schema.filterMap fun field => (record.lookup field.1).map fun datum => (field.1, datum)

theorem decode_encode {schema : RecordSchema} {record : Record}
    (h : conforms schema record = true) (rest : Bytes) :
    decode schema (encode schema record ++ rest) = some (project schema record, rest) := by
  induction schema with
  | nil => rfl
  | cons field schema ih =>
      rw [conforms, List.all_cons, Bool.and_eq_true] at h
      obtain ⟨hfield, hschema⟩ := h
      obtain ⟨datum, hlookup, hdatum⟩ := (Option.any_eq_true _ _).mp hfield
      have htail := ih hschema
      simp only [encode, project, List.flatMap_cons, hlookup, Option.elim_some,
        List.append_assoc] at htail ⊢
      rw [List.filterMap_cons_some (by rw [hlookup, Option.map_some])]
      simp only [decode, AvroType.decode_encode hdatum, Option.bind_some, htail, Option.map_some]

/-! ## Records with the fields of a schema -/

/-- The record has the fields of the schema, in their order. -/
structure Matches (schema : RecordSchema) (record : Record) : Prop where
  names : record.map Prod.fst = schema.map Prod.fst
  distinct : (schema.map Prod.fst).Nodup

theorem lookup_of_mem {record : Record} (hdistinct : (record.map Prod.fst).Nodup)
    {entry : String × Datum} (h : entry ∈ record) : record.lookup entry.1 = some entry.2 := by
  induction record with
  | nil => cases h
  | cons first record ih =>
      rw [List.map_cons, List.nodup_cons] at hdistinct
      rcases List.mem_cons.mp h with rfl | hrest
      · exact List.lookup_cons_self
      · have hne : (entry.1 == first.1) = false := by
          rw [beq_eq_false_iff_ne]
          intro heq
          exact hdistinct.1 (heq ▸ List.mem_map_of_mem hrest)
        rw [List.lookup_cons, hne]
        exact ih hdistinct.2 hrest

private theorem fields_of_entries {schema : RecordSchema} {record whole : Record}
    (hnames : record.map Prod.fst = schema.map Prod.fst)
    (hlookup : ∀ entry ∈ record, whole.lookup entry.1 = some entry.2) :
    (conforms schema whole = true ↔
        List.Forall₂ (fun field entry => field.2.conforms entry.2 = true) schema record) ∧
      project schema whole = record := by
  induction schema generalizing record with
  | nil =>
      have hnil : record = [] := List.map_eq_nil_iff.mp hnames
      subst hnil
      exact ⟨⟨fun _ => .nil, fun _ => rfl⟩, rfl⟩
  | cons field schema ih =>
      cases record with
      | nil => cases hnames
      | cons entry record =>
          rw [List.map_cons, List.map_cons, List.cons.injEq] at hnames
          obtain ⟨hconforms, hproject⟩ := ih hnames.2
            fun entry hentry => hlookup entry (List.mem_cons_of_mem _ hentry)
          have hfield : whole.lookup field.1 = some entry.2 :=
            hnames.1 ▸ hlookup entry List.mem_cons_self
          constructor
          · rw [conforms] at hconforms ⊢
            rw [List.all_cons, Bool.and_eq_true, List.forall₂_cons, hfield, Option.any_some,
              hconforms]
          · rw [project] at hproject ⊢
            rw [List.filterMap_cons_some (by rw [hfield, Option.map_some]), hproject, ← hnames.1]

theorem Matches.lookup {schema : RecordSchema} {record : Record} (h : Matches schema record) :
    ∀ entry ∈ record, record.lookup entry.1 = some entry.2 := by
  intro entry hentry
  have hdistinct : (record.map Prod.fst).Nodup := h.names ▸ h.distinct
  exact lookup_of_mem hdistinct hentry

/-- A conforming record with the fields of the schema is read back as it is. -/
theorem Matches.decode_encode {schema : RecordSchema} {record : Record}
    (h : Matches schema record) (hconforms : conforms schema record = true) (rest : Bytes) :
    decode schema (encode schema record ++ rest) = some (record, rest) := by
  rw [AvroBinary.decode_encode hconforms, (fields_of_entries h.names h.lookup).2]

end AvroBinary
