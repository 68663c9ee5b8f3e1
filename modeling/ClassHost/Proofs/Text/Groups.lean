import ClassHost.Proofs.Text.ModifiedUtf8

/-!
# Which byte strings are text

The decoder looks at a byte string only as far as to tell its groups apart. A byte says by its
highest bits how long its group is, and a group is taken with whatever bits it carries, also if a
shorter one would have done and also if it is a bare zero byte.

* `exists_groups`: what is read at all is one group after another.
* `decode_iff_groups` is the result: the byte strings that are decoded are those that split into
  groups of well-formed units, and each is decoded to the text that has these units; what the
  encoder writes for a text is among them.
-/

namespace ClassHost.Text.ModifiedUtf8

-- ---------------------------------------------------------------------------
-- Bytes by their marks
-- ---------------------------------------------------------------------------

/-- A byte is its marked bits and the rest. -/
theorem exists_carried {b mask mark : UInt8} {size : Nat} (hsize : 0 < size)
    (hsplit : ∀ n < 0x100, (n.toUInt8 &&& mask).toNat + n % size = n) (h : b &&& mask = mark) :
    ∃ x : Fin size, (mark.toNat + x.val).toUInt8 = b := by
  refine ⟨⟨b.toNat % size, Nat.mod_lt _ hsize⟩, ?_⟩
  have hnumber := hsplit b.toNat b.toNat_lt
  rw [Nat.toUInt8_eq, UInt8.ofNat_toNat, h] at hnumber
  rw [hnumber, Nat.toUInt8_eq, UInt8.ofNat_toNat]

variable {b c d : UInt8} {bytes rest : List UInt8}

theorem exists_one (h : b &&& 0x80 = 0) : ∃ x : Fin 0x80, x.val.toUInt8 = b := by
  have hcarried : ∃ x : Fin 0x80, ((0 : UInt8).toNat + x.val).toUInt8 = b :=
    exists_carried (by decide) (by decide +kernel) h
  simpa using hcarried

theorem exists_lead₂ (h : b &&& 0xE0 = 0xC0) : ∃ x : Fin 0x20, (0xC0 + x.val).toUInt8 = b :=
  exists_carried (by decide) (by decide +kernel) h

theorem exists_lead₃ (h : b &&& 0xF0 = 0xE0) : ∃ x : Fin 0x10, (0xE0 + x.val).toUInt8 = b :=
  exists_carried (by decide) (by decide +kernel) h

theorem exists_continuation (h : isContinuation b = true) :
    ∃ y : Fin 0x40, (0x80 + y.val).toUInt8 = b :=
  exists_carried (by decide) (by decide +kernel) (eq_of_beq h)

-- ---------------------------------------------------------------------------
-- Groups that are read
-- ---------------------------------------------------------------------------

/-- Whatever is read is one group after another. The induction is on the reader's own steps: each
step that goes on has taken a group off, and the others end in a fault. -/
theorem exists_groups {position : Nat} {read us : List UInt16}
    (h : readGroups position bytes read = .ok us) :
    ∃ groups : List Group, groups.flatMap Group.bytes = bytes := by
  -- three of the reader's branches take a group off the bytes, and the others fail
  induction position, bytes, read using readGroups.induct with
  | case1 position read => exact ⟨[], rfl⟩
  | case2 position read b rest hone ih =>
    rw [readGroups_one (eq_of_beq hone)] at h
    obtain ⟨groups, rfl⟩ := ih h
    obtain ⟨x, rfl⟩ := exists_one (eq_of_beq hone)
    exact ⟨.one x :: groups, rfl⟩
  | case3 position read b hone htwo c rest hc ih =>
    rw [beq_iff_eq] at hone
    rw [readGroups_two hone (eq_of_beq htwo) hc] at h
    obtain ⟨groups, rfl⟩ := ih h
    obtain ⟨x, rfl⟩ := exists_lead₂ (eq_of_beq htwo)
    obtain ⟨y, rfl⟩ := exists_continuation hc
    exact ⟨.two x y :: groups, rfl⟩
  | case6 position read b hone htwo hthree c d rest hc hd ih =>
    rw [beq_iff_eq] at hone htwo
    rw [readGroups_three hone htwo (eq_of_beq hthree) hc hd] at h
    obtain ⟨groups, rfl⟩ := ih h
    obtain ⟨x, rfl⟩ := exists_lead₃ (eq_of_beq hthree)
    obtain ⟨y, rfl⟩ := exists_continuation hc
    obtain ⟨z, rfl⟩ := exists_continuation hd
    exact ⟨.three x y z :: groups, rfl⟩
  | case4 | case5 | case7 | case8 | case9 | case10 | case11 =>
    rw [readGroups.eq_def] at h
    simp_all

theorem exists_groups_of_decode {text : String} (h : decode bytes = .ok text) :
    ∃ groups : List Group, groups.flatMap Group.bytes = bytes := by
  unfold decode at h
  split at h
  · exact nomatch h
  · rename_i us hread
    exact exists_groups hread

/-- **Which byte strings are decoded, and to what.** Every text is decoded from what it is encoded
as. A byte string is decoded exactly if it splits into groups of one, two or three bytes whose units
are well-formed, surrogates of a pair being possibly in two groups; and however it splits, it is
decoded to the text with these units. -/
theorem decode_iff_groups :
    (∀ text, decode (encode text) = .ok text) ∧
    (∀ bytes, (∃ text, decode bytes = .ok text) ↔
      ∃ groups : List Group, groups.flatMap Group.bytes = bytes ∧
        IsWellFormed (groups.map Group.unit)) ∧
    ∀ (groups : List Group) (text : String), decode (groups.flatMap Group.bytes) = .ok text ↔
      units text = groups.map Group.unit := by
  refine ⟨decode_encode, fun bytes => ?_, fun groups text => decode_flatMap_iff⟩
  constructor
  · rintro ⟨text, htext⟩
    obtain ⟨groups, rfl⟩ := exists_groups_of_decode htext
    exact ⟨groups, rfl, isWellFormed_iff.mpr ⟨text, decode_flatMap_iff.mp htext⟩⟩
  · rintro ⟨groups, rfl, hformed⟩
    obtain ⟨text, hunits⟩ := isWellFormed_iff.mp hformed
    exact ⟨text, decode_flatMap_iff.mpr hunits⟩

end ClassHost.Text.ModifiedUtf8
