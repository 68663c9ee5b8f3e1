import ClassHost.Proofs.Text.Units
import ClassHost.Text.ModifiedUtf8
import Mathlib.Algebra.Group.Nat.Defs

/-!
# Reading modified UTF-8 back

A byte string in modified UTF-8 is one group after another, and a `Group` is what its bytes carry:
the bits behind the marks that say how long it is. The reader takes one group at a time, so it is
enough to know what it makes of one (`readGroups_bytes`). What a byte of a group announces and
carries is a statement about the at most 128 bytes of its form, `lead₁` to `continuation`, and is
checked for each of them; how the carried bits make up a unit is arithmetic (`toNat_join`).

The encoder writes one group for every unit (`encodeUnit_eq`), so what it wrote is decoded to the
text that it was (`decode_encode`).
-/

namespace ClassHost.Text.ModifiedUtf8

-- ---------------------------------------------------------------------------
-- Groups
-- ---------------------------------------------------------------------------

/-- A group of bytes by the bits that they carry, the highest first. -/
inductive Group where
  /-- `0xxxxxxx` -/
  | one (x : Fin 0x80)
  /-- `110xxxxx 10yyyyyy` -/
  | two (x : Fin 0x20) (y : Fin 0x40)
  /-- `1110xxxx 10yyyyyy 10zzzzzz` -/
  | three (x : Fin 0x10) (y z : Fin 0x40)
  deriving Repr, DecidableEq

namespace Group

def bytes : Group → List UInt8
  | one x => [x.val.toUInt8]
  | two x y => [(0xC0 + x.val).toUInt8, (0x80 + y.val).toUInt8]
  | three x y z => [(0xE0 + x.val).toUInt8, (0x80 + y.val).toUInt8, (0x80 + z.val).toUInt8]

/-- The number that is written. -/
def number : Group → Nat
  | one x => x
  | two x y => x * 0x40 + y
  | three x y z => x * 0x1000 + y * 0x40 + z

/-- The unit that is written. -/
def unit (group : Group) : UInt16 := group.number.toUInt16

theorem number_lt (group : Group) : group.number < 0x10000 := by
  cases group with
  | one x => simp only [number]; omega
  | two x y => simp only [number]; omega
  | three x y z => simp only [number]; omega

theorem toNat_unit (group : Group) : group.unit.toNat = group.number :=
  toNat_toUInt16 group.number_lt

/-- The three bytes that any unit fits into. -/
def long (u : UInt16) : Group :=
  three ⟨u.toNat / 0x1000, by have := u.toNat_lt; omega⟩ ⟨u.toNat / 0x40 % 0x40, by omega⟩
    ⟨u.toNat % 0x40, by omega⟩

theorem number_long (u : UInt16) : (long u).number = u.toNat := by
  simp only [long, number]
  omega

theorem unit_long (u : UInt16) : (long u).unit = u := by
  apply UInt16.toNat_inj.mp
  rw [toNat_unit, number_long]

/-- The group that the encoder chooses for a unit. -/
def ofUnit (u : UInt16) : Group :=
  if hone : 0 < u.toNat ∧ u.toNat < 0x80 then one ⟨u.toNat, hone.2⟩
  else if htwo : u.toNat < 0x800 then
    two ⟨u.toNat / 0x40, by omega⟩ ⟨u.toNat % 0x40, by omega⟩
  else long u

theorem number_ofUnit (u : UInt16) : (ofUnit u).number = u.toNat := by
  unfold ofUnit
  split
  · rfl
  · split
    · simp only [number]
      omega
    · exact number_long u

theorem unit_ofUnit (u : UInt16) : (ofUnit u).unit = u := by
  apply UInt16.toNat_inj.mp
  rw [toNat_unit, number_ofUnit]

end Group

/-- The encoder writes one group for each unit. -/
theorem encodeUnit_eq (u : UInt16) : encodeUnit u = (Group.ofUnit u).bytes := by
  unfold encodeUnit Group.ofUnit
  dsimp only
  split
  · rfl
  · split
    · rfl
    · rfl

-- ---------------------------------------------------------------------------
-- The bytes of groups
-- ---------------------------------------------------------------------------

/-- A byte that is a group by itself. -/
theorem lead₁ : ∀ n < 0x80, n.toUInt8 &&& 0x80 = 0 ∧ n.toUInt8.toUInt16.toNat = n := by
  decide

/-- The first of two bytes carries five bits. -/
theorem lead₂ : ∀ n < 0x20, ((0xC0 + n).toUInt8 &&& 0x80 ≠ 0 ∧
    (0xC0 + n).toUInt8 &&& 0xE0 = 0xC0) ∧ ((0xC0 + n).toUInt8 &&& 0x1F).toUInt16.toNat = n := by
  decide

/-- The first of three bytes carries four bits. -/
theorem lead₃ : ∀ n < 0x10, ((0xE0 + n).toUInt8 &&& 0x80 ≠ 0 ∧
    (0xE0 + n).toUInt8 &&& 0xE0 ≠ 0xC0 ∧ (0xE0 + n).toUInt8 &&& 0xF0 = 0xE0) ∧
    ((0xE0 + n).toUInt8 &&& 0x0F).toUInt16.toNat = n := by
  decide

/-- Any other byte carries six bits. -/
theorem continuation : ∀ n < 0x40, isContinuation (0x80 + n).toUInt8 = true ∧
    (payload (0x80 + n).toUInt8).toNat = n := by
  decide

/-- Bits put behind those of `a`. -/
theorem toNat_join {a b shift : UInt16} (hshift : shift.toNat < 16)
    (hb : b.toNat < 2 ^ shift.toNat) (ha : a.toNat * 2 ^ shift.toNat < 2 ^ 16) :
    (a <<< shift ||| b).toNat = a.toNat * 2 ^ shift.toNat + b.toNat := by
  have hmove : (a <<< shift).toNat = a.toNat <<< shift.toNat := by
    rw [UInt16.toNat_shiftLeft, Nat.mod_eq_of_lt hshift, Nat.shiftLeft_eq, Nat.mod_eq_of_lt ha]
  rw [UInt16.toNat_or, hmove, ← Nat.shiftLeft_add_eq_or_of_lt hb, Nat.shiftLeft_eq]

-- ---------------------------------------------------------------------------
-- Groups and texts
-- ---------------------------------------------------------------------------

variable {position : Nat} {b c d : UInt8} {rest : List UInt8} {read : List UInt16}

theorem readGroups_one (hlead : b &&& 0x80 = 0) :
    readGroups position (b :: rest) read = readGroups (position + 1) rest (b.toUInt16 :: read) := by
  rw [readGroups.eq_def]
  simp [hlead]

theorem readGroups_two (hbit : b &&& 0x80 ≠ 0) (hlead : b &&& 0xE0 = 0xC0)
    (hc : isContinuation c = true) :
    readGroups position (b :: c :: rest) read =
      readGroups (position + 2) rest (((b &&& 0x1F).toUInt16 <<< 6 ||| payload c) :: read) := by
  rw [readGroups.eq_def]
  simp only [beq_iff_eq, hbit, hlead, hc, if_true, if_false]

theorem readGroups_three (hbit : b &&& 0x80 ≠ 0) (hother : b &&& 0xE0 ≠ 0xC0)
    (hlead : b &&& 0xF0 = 0xE0) (hc : isContinuation c = true) (hd : isContinuation d = true) :
    readGroups position (b :: c :: d :: rest) read =
      readGroups (position + 3) rest
        (((b &&& 0x0F).toUInt16 <<< 12 ||| payload c <<< 6 ||| payload d) :: read) := by
  rw [readGroups.eq_def]
  simp only [beq_iff_eq, hbit, hother, hlead, hc, hd, if_true, if_false]

/-- **One step.** A group is read as its unit, whatever follows. -/
theorem readGroups_bytes (group : Group) (position : Nat) (rest : List UInt8)
    (read : List UInt16) :
    readGroups position (group.bytes ++ rest) read =
      readGroups (position + group.bytes.length) rest (group.unit :: read) := by
  -- the masks take the payloads out of the bytes again, and the shifts put them where `number` does
  cases group with
  | one x =>
    obtain ⟨hlead, hvalue⟩ := lead₁ x x.isLt
    have hunit : x.val.toUInt8.toUInt16 = (Group.one x).unit := by
      apply UInt16.toNat_inj.mp
      rw [hvalue, Group.toNat_unit, Group.number]
    rw [Group.bytes, List.singleton_append, readGroups_one hlead, hunit, List.length_singleton]
  | two x y =>
    obtain ⟨⟨hbit, hlead⟩, hhigh⟩ := lead₂ x x.isLt
    obtain ⟨hcontinues, hlow⟩ := continuation y y.isLt
    have hunit : ((0xC0 + x.val).toUInt8 &&& 0x1F).toUInt16 <<< 6 |||
        payload (0x80 + y.val).toUInt8 = (Group.two x y).unit := by
      apply UInt16.toNat_inj.mp
      rw [toNat_join (by decide) (by rw [hlow]; exact y.isLt)
        (by rw [hhigh]; change _ * 64 < 65536; omega), hhigh, hlow, Group.toNat_unit]
      rfl
    rw [Group.bytes, List.cons_append, List.singleton_append, readGroups_two hbit hlead hcontinues,
      hunit]
    rfl
  | three x y z =>
    obtain ⟨⟨hbit, hother, hlead⟩, hhigh⟩ := lead₃ x x.isLt
    obtain ⟨hcontinues, hmiddle⟩ := continuation y y.isLt
    obtain ⟨hcontinues', hlow⟩ := continuation z z.isLt
    have hbehind : (payload (0x80 + y.val).toUInt8 <<< 6 |||
        payload (0x80 + z.val).toUInt8).toNat = y * 0x40 + z := by
      rw [toNat_join (by decide) (by rw [hlow]; exact z.isLt)
        (by rw [hmiddle]; change _ * 64 < 65536; omega), hmiddle, hlow]
      rfl
    have hunit : ((0xE0 + x.val).toUInt8 &&& 0x0F).toUInt16 <<< 12 |||
        payload (0x80 + y.val).toUInt8 <<< 6 ||| payload (0x80 + z.val).toUInt8 =
        (Group.three x y z).unit := by
      apply UInt16.toNat_inj.mp
      rw [UInt16.or_assoc, toNat_join (by decide)
        (by rw [hbehind]; change _ < 4096; omega)
        (by rw [hhigh]; change _ * 4096 < 65536; omega), hhigh, hbehind, Group.toNat_unit]
      change _ * 4096 + _ = _ * 4096 + _ * 64 + _
      omega
    rw [Group.bytes, List.cons_append, List.cons_append, List.singleton_append,
      readGroups_three hbit hother hlead hcontinues hcontinues', hunit]
    rfl

theorem readGroups_flatMap (groups : List Group) (position : Nat) (read : List UInt16) :
    readGroups position (groups.flatMap Group.bytes) read =
      .ok (read.reverse ++ groups.map Group.unit) := by
  induction groups generalizing position read with
  | nil => rw [List.flatMap_nil, readGroups, List.map_nil, List.append_nil]
  | cons group groups ih =>
    rw [List.flatMap_cons, readGroups_bytes, ih, List.reverse_cons, List.append_assoc,
      List.singleton_append, List.map_cons]

/-- Groups are decoded to the text that has their units. -/
theorem decode_flatMap_iff {groups : List Group} {text : String} :
    decode (groups.flatMap Group.bytes) = .ok text ↔ units text = groups.map Group.unit := by
  rw [← ofUnits?_eq_some_iff, decode, readGroups_flatMap]
  dsimp only
  rw [List.reverse_nil, List.nil_append]
  cases ofUnits? (groups.map Group.unit) with
  | none => exact ⟨nofun, nofun⟩
  | some text' => simp

/-- The groups that a text is encoded as. -/
def groupsOf (text : String) : List Group := (units text).map Group.ofUnit

theorem map_unit_groupsOf (text : String) : (groupsOf text).map Group.unit = units text := by
  have hid : Group.unit ∘ Group.ofUnit = id := funext Group.unit_ofUnit
  rw [groupsOf, List.map_map, hid, List.map_id]

theorem encode_eq (text : String) : encode text = (groupsOf text).flatMap Group.bytes := by
  rw [encode, groupsOf, List.flatMap_map, funext encodeUnit_eq]

/-- **The code loses nothing.** An encoded text is decoded to itself, whatever its characters. -/
theorem decode_encode (text : String) : decode (encode text) = .ok text := by
  rw [encode_eq, decode_flatMap_iff, map_unit_groupsOf]

end ClassHost.Text.ModifiedUtf8
