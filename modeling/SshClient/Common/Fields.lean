import SshClient.Common.Encoding

/-!
# Messages as sequences of fields

A message is a sequence of single bytes, integers and length-prefixed strings. A sequence
of known kinds can be read back whatever follows it, so it is determined by its bytes.
-/

namespace SshClient

open Control

inductive FieldKind where
  | byte
  | uint32
  | text
  deriving DecidableEq, Repr

inductive Field where
  | byte (value : UInt8)
  | uint32 (value : UInt32)
  | text (value : Bytes)
  deriving DecidableEq, Repr

namespace Field

def kind : Field → FieldKind
  | .byte _ => .byte
  | .uint32 _ => .uint32
  | .text _ => .text

@[simp] def bytes : Field → Bytes
  | .byte value => [value]
  | .uint32 value => encodeUint32 value
  | .text value => encodeString value

/-- The length of a string fits into its prefix. -/
@[simp] def Fits : Field → Prop
  | .text value => value.length < 4294967296
  | _ => True

end Field

/-- The bytes of a sequence of fields. -/
def layout (fields : List Field) : Bytes := fields.flatMap Field.bytes

@[simp] theorem layout_nil : layout [] = [] := rfl

@[simp] theorem layout_cons (field : Field) (fields : List Field) :
    layout (field :: fields) = field.bytes ++ layout fields := List.flatMap_cons

theorem layout_append (fields more : List Field) :
    layout (fields ++ more) = layout fields ++ layout more := List.flatMap_append

/-- Read one field at the cursor, a byte without a check of its own. -/
def readField (payload : Bytes) : FieldKind → Exec Nat Field
  | .byte => do
      let position ← get
      let value ← byteAt payload position
      set (position + 1)
      return .byte value
  | .uint32 => do return .uint32 (← readUint32 payload)
  | .text => do return .text (← readString payload)

def readFields (payload : Bytes) : List FieldKind → Exec Nat (List Field)
  | [] => return []
  | kind :: kinds => do
      let field ← readField payload kind
      let fields ← readFields payload kinds
      return field :: fields

variable {payload rest : Bytes} {p : Nat}

/-- A field at the cursor is read back, whatever follows it. -/
theorem readField_of_drop {field : Field} (fits : field.Fits)
    (h : payload.drop p = field.bytes ++ rest) :
    (readField payload field.kind).run p = .ok field (p + field.bytes.length) ∧
      payload.drop (p + field.bytes.length) = rest := by
  cases field with
  | byte value =>
      have hget : payload[p]? = some value := by
        rw [← List.head?_drop, h]
        rfl
      refine ⟨WP.run_eq ?_, ?_⟩
      · simp only [Field.kind, readField, WP.bind_iff, WP.get_iff, wp_byteAt, hget, WP.set_iff,
          WP.pure_iff]
        constructor
        · intro b hb
          cases hb
          exact ⟨rfl, rfl⟩
        · intro hnone
          cases hnone
      · rw [← List.drop_drop, h]
        rfl
  | uint32 value =>
      obtain ⟨run, hrest⟩ := readUint32_of_drop h
      refine ⟨WP.run_eq ?_, ?_⟩
      · simp [Field.kind, readField, WP.ok_iff run, Field.bytes]
      · rw [Field.bytes, encodeUint32_length]
        exact hrest
  | text value =>
      obtain ⟨run, hrest⟩ := readString_of_drop fits h
      refine ⟨WP.run_eq ?_, ?_⟩
      · simp [Field.kind, readField, WP.ok_iff run, Field.bytes, Nat.add_assoc]
      · rw [Field.bytes, encodeString_length, ← Nat.add_assoc]
        exact hrest

/-- So is a sequence of fields. -/
theorem readFields_of_drop {fields : List Field} (fits : ∀ field ∈ fields, field.Fits)
    (h : payload.drop p = layout fields ++ rest) :
    (readFields payload (fields.map Field.kind)).run p = .ok fields (p + (layout fields).length) ∧
      payload.drop (p + (layout fields).length) = rest := by
  induction fields generalizing p with
  | nil => exact ⟨rfl, by simpa using h⟩
  | cons field fields ih =>
      rw [layout_cons, List.append_assoc] at h
      obtain ⟨run, hnext⟩ := readField_of_drop (fits field List.mem_cons_self) h
      obtain ⟨runs, hrest⟩ := ih (fun f hf => fits f (List.mem_cons_of_mem _ hf)) hnext
      rw [layout_cons, List.length_append, ← Nat.add_assoc]
      refine ⟨WP.run_eq ?_, hrest⟩
      simp only [List.map_cons, readFields, WP.bind_iff, WP.ok_iff run, WP.ok_iff runs, WP.pure_iff,
        and_self]

/-- The bytes of fields of known kinds determine the fields and what follows them. -/
theorem layout_inj {fields fields' : List Field} {rest rest' : Bytes}
    (fits : ∀ field ∈ fields, field.Fits) (fits' : ∀ field ∈ fields', field.Fits)
    (kinds : fields.map Field.kind = fields'.map Field.kind)
    (h : layout fields ++ rest = layout fields' ++ rest') : fields = fields' ∧ rest = rest' := by
  obtain ⟨run, hrest⟩ := readFields_of_drop fits
    (show (layout fields ++ rest).drop 0 = layout fields ++ rest from rfl)
  obtain ⟨run', hrest'⟩ := readFields_of_drop fits'
    (show (layout fields' ++ rest').drop 0 = layout fields' ++ rest' from rfl)
  rw [h, kinds, run'] at run
  cases run
  rw [h] at hrest
  exact ⟨rfl, hrest.symm.trans hrest'⟩

end SshClient
