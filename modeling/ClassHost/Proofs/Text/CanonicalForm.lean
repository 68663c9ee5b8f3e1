import ClassHost.ClassFile.Parser
import ClassHost.Proofs.Text.Groups

/-!
# Canonical forms

The encoder writes a text without zero bytes and every unit in as few bytes as possible; that is the
text's canonical form. The decoder asks for neither. It has no bound below which a longer group is
refused, so a unit may stand in more bytes than it needs, and the zero unit in a single zero byte.

* `Group.isShortest_iff`: of each unit, one group is in canonical form.
* `flatMap_bytes_injective`: a byte string splits into groups in one way.
* `canonical_exact` is the result. Of the forms that are decoded to a text, the canonical one is the
  one that the encoder writes; and it is the only form at all exactly if every unit of the text
  needs three bytes.
* `not_canonical_overlong` has two texts with a second form, and a class file with two constants of
  the same name.
-/

namespace ClassHost.Text.ModifiedUtf8

-- ---------------------------------------------------------------------------
-- Canonical forms
-- ---------------------------------------------------------------------------

/-- No zero byte, and no more bytes than any other group of the same unit without one. -/
def Group.IsShortest (group : Group) : Prop :=
  0 ∉ group.bytes ∧ ∀ other : Group, 0 ∉ other.bytes → other.unit = group.unit →
    group.bytes.length ≤ other.bytes.length

/-- Every unit is in its shortest group. -/
def IsCanonical (bytes : List UInt8) : Prop :=
  ∃ groups : List Group, groups.flatMap Group.bytes = bytes ∧ ∀ group ∈ groups, group.IsShortest

namespace Group

variable {group other : Group} {u : UInt16}

theorem number_eq_of_unit_eq (h : group.unit = other.unit) : group.number = other.number := by
  rw [← toNat_unit, ← toNat_unit, h]

/-- Groups of a length differ in what they carry. -/
theorem eq_of_length_eq (hlength : group.bytes.length = other.bytes.length)
    (hunit : group.unit = other.unit) : group = other := by
  -- groups of one length have their payloads at the same places of the number
  have hnumber := number_eq_of_unit_eq hunit
  cases group with
  | one x =>
    cases other with
    | one x' => rw [Fin.ext hnumber]
    | two | three => simp [bytes] at hlength
  | two x y =>
    cases other with
    | two x' y' =>
      simp only [number] at hnumber
      have hx : x = x' := Fin.ext (by omega)
      have hy : y = y' := Fin.ext (by omega)
      rw [hx, hy]
    | one | three => simp [bytes] at hlength
  | three x y z =>
    cases other with
    | three x' y' z' =>
      simp only [number] at hnumber
      have hx : x = x' := Fin.ext (by omega)
      have hy : y = y' := Fin.ext (by omega)
      have hz : z = z' := Fin.ext (by omega)
      rw [hx, hy, hz]
    | one | two => simp [bytes] at hlength

/-- Bytes with a mark are not zero. -/
theorem marked_ne_zero : (∀ n < 0x20, (0xC0 + n).toUInt8 ≠ 0) ∧
    (∀ n < 0x10, (0xE0 + n).toUInt8 ≠ 0) ∧ ∀ n < 0x40, (0x80 + n).toUInt8 ≠ 0 := by
  decide

theorem zero_mem_bytes_iff : 0 ∈ group.bytes ↔ group = one 0 := by
  obtain ⟨htwo, hthree, hbehind⟩ := marked_ne_zero
  cases group with
  | one x =>
    have hbyte : (0 : UInt8) = x.val.toUInt8 ↔ x = 0 := by
      revert x
      decide
    simp only [bytes, List.mem_singleton, hbyte, one.injEq]
  | two x y =>
    have hx := htwo x x.isLt
    have hy := hbehind y y.isLt
    simp only [bytes, List.mem_cons, List.not_mem_nil, hx.symm, hy.symm, or_false, reduceCtorEq]
  | three x y z =>
    have hx := hthree x x.isLt
    have hy := hbehind y y.isLt
    have hz := hbehind z z.isLt
    simp only [bytes, List.mem_cons, List.not_mem_nil, hx.symm, hy.symm, hz.symm, or_false,
      reduceCtorEq]

theorem zero_notMem_ofUnit (u : UInt16) : 0 ∉ (ofUnit u).bytes := by
  rw [zero_mem_bytes_iff]
  intro h
  have hzero : u.toNat = 0 := by
    rw [← number_ofUnit, h]
    rfl
  have htwo : ofUnit u = two ⟨u.toNat / 0x40, by omega⟩ ⟨u.toNat % 0x40, by omega⟩ := by
    rw [ofUnit, dif_neg (by omega), dif_pos (by omega)]
  rw [htwo] at h
  exact nomatch h

theorem length_ofUnit_le (h : 0 ∉ group.bytes) :
    (ofUnit group.unit).bytes.length ≤ group.bytes.length := by
  have hnumber := toNat_unit group
  rw [zero_mem_bytes_iff] at h
  -- the canonical group is the shortest whose payload holds the unit; only for zero is it longer
  unfold ofUnit
  split
  · cases group <;> simp [bytes]
  · rename_i hone
    split
    · cases group with
      | one x =>
        have hx : x.val ≠ 0 := fun hzero => h (congrArg one (Fin.ext hzero))
        simp only [number] at hnumber
        omega
      | two | three => simp [bytes]
    · rename_i htwo
      cases group with
      | one x | two x y =>
        simp only [number] at hnumber
        omega
      | three x y z => simp [bytes, long]

/-- **The encoder's groups are the shortest.** -/
theorem isShortest_iff : group.IsShortest ↔ group = ofUnit group.unit := by
  constructor
  · rintro ⟨hzero, hshortest⟩
    refine eq_of_length_eq ?_ (unit_ofUnit group.unit).symm
    apply Nat.le_antisymm
    · exact hshortest _ (zero_notMem_ofUnit _) (unit_ofUnit group.unit)
    · exact length_ofUnit_le hzero
  · intro h
    rw [h]
    refine ⟨zero_notMem_ofUnit _, fun other hother hunit => ?_⟩
    rw [unit_ofUnit] at hunit
    rw [← hunit]
    exact length_ofUnit_le hother

theorem isShortest_ofUnit (u : UInt16) : (ofUnit u).IsShortest := by
  rw [isShortest_iff, unit_ofUnit]

/-- A large unit has no group but its shortest. -/
theorem eq_ofUnit_of_le (h : 0x800 ≤ group.unit.toNat) : group = ofUnit group.unit := by
  have hlong : ofUnit group.unit = long group.unit := by
    rw [ofUnit, dif_neg (by omega), dif_neg (by omega)]
  rw [hlong]
  refine eq_of_length_eq ?_ (unit_long group.unit).symm
  rw [toNat_unit] at h
  cases group with
  | one x | two x y =>
    simp only [number] at h
    omega
  | three x y z => rfl

/-- Only large units need three bytes. -/
theorem le_of_long_eq (h : long u = ofUnit u) : 0x800 ≤ u.toNat := by
  unfold ofUnit at h
  split at h
  · exact nomatch h
  · split at h
    · exact nomatch h
    · omega

-- ---------------------------------------------------------------------------
-- Splitting into groups
-- ---------------------------------------------------------------------------

/-- How long a group is by its first byte. -/
def lengthBy (lead : UInt8) : Nat :=
  if lead &&& 0x80 = 0 then 1 else if lead &&& 0xE0 = 0xC0 then 2 else 3

theorem length_bytes (group : Group) :
    ∃ lead rest, group.bytes = lead :: rest ∧ group.bytes.length = lengthBy lead := by
  cases group with
  | one x =>
    refine ⟨_, _, rfl, ?_⟩
    rw [lengthBy, if_pos (lead₁ x x.isLt).1]
    rfl
  | two x y =>
    obtain ⟨⟨hbit, hlead⟩, -⟩ := lead₂ x x.isLt
    refine ⟨_, _, rfl, ?_⟩
    rw [lengthBy, if_neg hbit, if_pos hlead]
    rfl
  | three x y z =>
    obtain ⟨⟨hbit, hother, -⟩, -⟩ := lead₃ x x.isLt
    refine ⟨_, _, rfl, ?_⟩
    rw [lengthBy, if_neg hbit, if_neg hother]
    rfl

theorem bytes_injective : Function.Injective bytes := by
  intro group other h
  have hread : ∀ g : Group, readGroups 0 g.bytes [] = .ok [g.unit] := by
    intro g
    have hgroups := readGroups_flatMap [g] 0 []
    rwa [List.flatMap_singleton] at hgroups
  have hunits := hread group
  rw [h, hread other] at hunits
  exact eq_of_length_eq (congrArg List.length h) (List.singleton_inj.mp (Except.ok.inj hunits)).symm

/-- No group is the front of another one. -/
theorem bytes_append_inj {rest rest' : List UInt8}
    (h : group.bytes ++ rest = other.bytes ++ rest') : group = other ∧ rest = rest' := by
  obtain ⟨lead, behind, hbytes, hlength⟩ := length_bytes group
  obtain ⟨lead', behind', hbytes', hlength'⟩ := length_bytes other
  have hlead : lead = lead' := by
    rw [hbytes, hbytes'] at h
    exact (List.cons.inj h).1
  rw [hlead, ← hlength'] at hlength
  obtain ⟨hfront, hrest⟩ := List.append_inj h hlength
  exact ⟨bytes_injective hfront, hrest⟩

end Group

/-- **A byte string splits in one way.** -/
theorem flatMap_bytes_injective :
    Function.Injective fun groups : List Group => groups.flatMap Group.bytes := by
  intro groups others h
  dsimp only at h
  -- a group has at least its lead byte, and that says where the group ends
  induction groups generalizing others with
  | nil =>
    cases others with
    | nil => rfl
    | cons other others =>
      obtain ⟨lead, rest, hbytes, -⟩ := other.length_bytes
      rw [List.flatMap_cons, hbytes] at h
      exact nomatch h
  | cons group groups ih =>
    cases others with
    | nil =>
      obtain ⟨lead, rest, hbytes, -⟩ := group.length_bytes
      rw [List.flatMap_cons, hbytes] at h
      exact nomatch h
    | cons other others =>
      obtain ⟨rfl, hrest⟩ := Group.bytes_append_inj h
      rw [ih hrest]

-- ---------------------------------------------------------------------------
-- Forms of a text
-- ---------------------------------------------------------------------------

variable {text : String}

/-- The canonical form of a text is the one that the encoder writes. -/
theorem canonical_iff {bytes : List UInt8} :
    decode bytes = .ok text ∧ IsCanonical bytes ↔ bytes = encode text := by
  constructor
  · rintro ⟨hdecode, groups, rfl, hshortest⟩
    have hunits := decode_flatMap_iff.mp hdecode
    have hgroups : groups = groupsOf text := by
      rw [groupsOf, hunits, List.map_map]
      refine (List.map_id groups).symm.trans ?_
      exact List.map_congr_left fun group hmem => Group.isShortest_iff.mp (hshortest group hmem)
    rw [encode_eq, ← hgroups]
  · rintro rfl
    refine ⟨decode_encode text, groupsOf text, (encode_eq text).symm, ?_⟩
    intro group hmem
    obtain ⟨u, -, rfl⟩ := List.mem_map.mp hmem
    exact Group.isShortest_ofUnit u

/-- A text can be written in three bytes for each unit. -/
theorem decode_long (text : String) :
    decode (((units text).map Group.long).flatMap Group.bytes) = .ok text := by
  have hid : Group.unit ∘ Group.long = id := funext Group.unit_long
  rw [decode_flatMap_iff, List.map_map, hid, List.map_id]

/-- A text has no other form exactly if all its units are large. -/
theorem only_form_iff :
    (∀ bytes, decode bytes = .ok text → bytes = encode text) ↔
      ∀ u ∈ units text, 0x800 ≤ u.toNat := by
  constructor
  · intro honly u hmem
    have hforms := honly _ (decode_long text)
    rw [encode_eq] at hforms
    have hgroups := flatMap_bytes_injective hforms
    exact Group.le_of_long_eq (List.map_inj_left.mp hgroups u hmem)
  · intro hlarge bytes hdecode
    obtain ⟨groups, rfl⟩ := exists_groups_of_decode hdecode
    refine canonical_iff.mp ⟨hdecode, groups, rfl, fun group hmem => ?_⟩
    rw [Group.isShortest_iff]
    refine Group.eq_ofUnit_of_le (hlarge group.unit ?_)
    rw [decode_flatMap_iff.mp hdecode]
    exact List.mem_map_of_mem hmem

/-- **Canonical forms are exact.** Among the byte strings that are decoded to a text, the one
without zero bytes and without groups longer than needed is the one that the text is encoded as.
It is the only one of them exactly if every unit of the text needs three bytes. -/
theorem canonical_exact (text : String) :
    (∀ bytes, decode bytes = .ok text ∧ IsCanonical bytes ↔ bytes = encode text) ∧
    ((∀ bytes, decode bytes = .ok text → bytes = encode text) ↔
      ∀ u ∈ units text, 0x800 ≤ u.toNat) :=
  ⟨fun _ => canonical_iff, only_form_iff⟩

/-- A class `A` with two constants for its name, one in more bytes than needed. -/
def twoNamesFile : Bytes :=
  [0xCA, 0xFE, 0xBA, 0xBE, 0, 0, 0, 52, 0, 4, 7, 0, 2, 1, 0, 1, 0x41, 1, 0, 2, 0xC1, 0x81,
    0, 0, 0, 1, 0, 0, 0, 0, 0, 0, 0, 0, 0, 0]

/-- A bare zero byte is decoded, and so is a letter in two bytes. -/
theorem not_canonical_overlong :
    ¬ (∀ bytes text, decode bytes = .ok text → encode text = bytes) ∧
    ¬ (∀ bytes bytes' text, decode bytes = .ok text → decode bytes' = .ok text → bytes = bytes') ∧
    (decode [0] = .ok "\x00" ∧ encode "\x00" = [0xC0, 0x80]) ∧
    (decode [0xC1, 0x81] = .ok "A" ∧ encode "A" = [0x41]) ∧
    ∃ file, ClassFile.parse twoNamesFile = .ok file ∧
      file.pool.entries = #[.className 2, .utf8 "A", .utf8 "A"] := by
  have hzero : decode [0] = .ok "\x00" ∧ encode "\x00" = [0xC0, 0x80] := ⟨rfl, by decide⟩
  have hletter : decode [0xC1, 0x81] = .ok "A" ∧ encode "A" = [0x41] := ⟨rfl, by decide⟩
  refine ⟨fun h => ?_, fun h => ?_, hzero, hletter, _, rfl, rfl⟩
  · have hform := h _ _ hzero.1
    rw [hzero.2] at hform
    exact nomatch hform
  · have hforms := h _ [0x41] "A" hletter.1 rfl
    exact nomatch hforms

end ClassHost.Text.ModifiedUtf8
