import ClassHost.Proofs.ClassFile.PoolReferences

/-!
# Slots and the count

The number in front of a pool is one more than the number of slots that follow. A 64-bit number
takes two of them, and in the middle of a pool everything stays in step: each such number is
followed by a slot that holds nothing, and no other slot is empty (`Layout.Entries.spaced`). At the
end it does not. A 64-bit number is read also when one slot is left, and is given a second one all
the same, so the pool has a slot more than was announced, and an index equal to the count leads to
it.

`FitsCount` is what the count promises. `parse_fitsCount_iff` is the result: an accepted pool keeps
the promise exactly if no 64-bit number stands in the last slot announced. `not_fitsCount_overrun`
has a file in which one does.
-/

namespace ClassHost

namespace Layout

/-- Slots that are taken entry by entry are laid out right. -/
theorem Entries.spaced {slots : List Constant} (h : Entries slots) :
    slots[0]? ≠ some .reserved ∧ ∀ i (hi : i < slots.length),
      slots[i + 1]? = some .reserved ↔ slots[i].isWide = true := by
  induction h with
  | nil => exact ⟨nofun, nofun⟩
  | @narrow entry rest hheld hnarrow hrest ih =>
    obtain ⟨hfirst, hafter⟩ := ih
    refine ⟨by simpa using hheld, fun i hi => ?_⟩
    cases i with
    | zero =>
      rw [List.getElem?_cons_succ, List.getElem_cons_zero, hnarrow]
      exact ⟨fun hreserved => absurd hreserved hfirst, nofun⟩
    | succ i => exact hafter i (by simpa using hi)
  | @wide entry rest hwide hrest ih =>
    obtain ⟨hfirst, hafter⟩ := ih
    have hheld : entry ≠ .reserved := by
      rintro rfl
      exact nomatch hwide
    refine ⟨by simpa using hheld, fun i hi => ?_⟩
    -- behind the wide entry comes its reserved slot, and behind that the next entry
    match i with
    | 0 => exact ⟨fun _ => hwide, fun _ => rfl⟩
    | 1 => exact ⟨fun hreserved => absurd hreserved hfirst, nofun⟩
    | i + 2 => exact hafter i (by simpa using hi)

end Layout

-- ---------------------------------------------------------------------------
-- What the count promises
-- ---------------------------------------------------------------------------

namespace ConstantPool

/-- There is a 64-bit number in the last of so many slots. -/
def EndsWide (pool : ConstantPool) (slots : Nat) : Prop :=
  ∃ i entry, i + 1 = slots ∧ pool.entries[i]? = some entry ∧ entry.isWide = true

/-- A pool as a count says: as many slots as announced, empty ones exactly behind 64-bit numbers,
and the indices below the count leading to the slots. -/
structure FitsCount (count : Nat) (pool : ConstantPool) : Prop where
  size : pool.size = count - 1
  reserved : ∀ i (hi : i < pool.entries.size), pool.entries[i] = .reserved ↔
    ∃ j before, j + 1 = i ∧ pool.entries[j]? = some before ∧ before.isWide = true
  addresses : ∀ index : UInt16, (∃ entry, pool.get index = .ok entry) ↔
    1 ≤ index.toNat ∧ index.toNat < count

variable {pool : ConstantPool}

theorem Spaced.reserved_iff (h : pool.Spaced) (i : Nat) (hi : i < pool.entries.size) :
    pool.entries[i] = .reserved ↔
      ∃ j before, j + 1 = i ∧ pool.entries[j]? = some before ∧ before.isWide = true := by
  cases i with
  | zero =>
    have hfirst := h.first
    rw [Array.getElem?_eq_getElem hi] at hfirst
    constructor
    · intro hreserved
      exact absurd (congrArg some hreserved) hfirst
    · rintro ⟨j, before, hj, -⟩
      omega
  | succ i =>
    have hbefore : i < pool.entries.size := by omega
    -- a slot holds nothing exactly when the one before it is wide
    have hafter := h.after i hbefore
    rw [Array.getElem?_eq_getElem hi, Option.some.injEq] at hafter
    rw [hafter]
    constructor
    · intro hwide
      exact ⟨i, pool.entries[i], rfl, Array.getElem?_eq_getElem hbefore, hwide⟩
    · rintro ⟨j, before, hj, hslot, hwide⟩
      obtain rfl : j = i := by omega
      rw [Array.getElem?_eq_getElem hbefore, Option.some.injEq] at hslot
      rw [hslot]
      exact hwide

theorem Spaced.fitsCount {count : Nat} (h : pool.Spaced) (hsize : pool.size = count - 1) :
    pool.FitsCount count where
  size := hsize
  reserved := h.reserved_iff
  addresses index := by
    rw [exists_get_iff]
    omega

/-- The second slot of a number at the end is the one after the last. -/
theorem Spaced.get_of_endsWide {slots : Nat} {index : UInt16} (h : pool.Spaced)
    (hends : pool.EndsWide slots) (hindex : index.toNat = slots + 1) :
    pool.get index = .ok .reserved := by
  obtain ⟨i, entry, hi, hslot, hwide⟩ := hends
  obtain ⟨hlt, hentry⟩ := Array.getElem?_eq_some_iff.mp hslot
  refine get_of_slot ((h.after i hlt).mpr ?_) (by omega)
  rw [hentry]
  exact hwide

end ConstantPool

-- ---------------------------------------------------------------------------
-- Accepted pools
-- ---------------------------------------------------------------------------

namespace ClassFile

theorem entries_slotsOf (items : List PoolEntry) : Layout.Entries (slotsOf items) := by
  induction items with
  | nil => exact .nil
  | cons item items ih =>
    by_cases hwide : item.entry.isWide = true
    · rw [slotsOf_wide hwide]
      exact .wide hwide ih
    · have hnarrow : item.entry.isWide = false := by simpa using hwide
      rw [slotsOf_narrow hnarrow]
      exact .narrow item.ne_reserved hnarrow ih

/-- The entries take one slot each, or two, and one too many exactly if the last slot is wide. -/
theorem length_slotsOf {count : Nat} {items : List PoolEntry} (h : Fills count items) :
    (slotsOf items).length = count ∧
      (∀ i entry, i + 1 = count → (slotsOf items)[i]? = some entry → entry.isWide = false) ∨
    (slotsOf items).length = count + 1 ∧
      ∃ i entry, i + 1 = count ∧ (slotsOf items)[i]? = some entry ∧ entry.isWide = true := by
  -- the second case starts at an overrun and is handed on unchanged by the entries before it
  induction h with
  | nil => exact .inl ⟨rfl, nofun⟩
  | @narrow count item items hnarrow hrest ih =>
    rw [slotsOf_narrow hnarrow]
    rcases ih with ⟨hlength, hlast⟩ | ⟨hlength, i, entry, hi, hslot, hwide⟩
    · refine .inl ⟨congrArg (· + 1) hlength, fun i entry hi hslot => ?_⟩
      cases i with
      | zero =>
        obtain rfl : item.entry = entry := Option.some.inj hslot
        exact hnarrow
      | succ i => exact hlast i entry (by omega) hslot
    · exact .inr ⟨congrArg (· + 1) hlength, i + 1, entry, by omega, hslot, hwide⟩
  | @wide count item items hwide hrest ih =>
    rw [slotsOf_wide hwide]
    rcases ih with ⟨hlength, hlast⟩ | ⟨hlength, i, entry, hi, hslot, hwide'⟩
    · refine .inl ⟨congrArg (· + 2) hlength, fun i entry hi hslot => ?_⟩
      match i with
      | 0 => omega
      | 1 =>
        obtain rfl : .reserved = entry := Option.some.inj hslot
        rfl
      | i + 2 => exact hlast i entry (by omega) hslot
    · exact .inr ⟨congrArg (· + 2) hlength, i + 2, entry, by omega, hslot, hwide'⟩
  | @overrun item hwide =>
    rw [slotsOf_wide hwide]
    exact .inr ⟨rfl, 0, item.entry, rfl, rfl, hwide⟩

/-- The count of a pool, which stands behind the magic number and the versions. -/
def declaredCount (input : Bytes) : Nat := Bytes.toNat ((input.drop 8).take 2)

namespace Parts

theorem declaredCount_bytes (parts : Parts) : declaredCount parts.bytes = parts.count.toNat := by
  have hversions : ([Layout.u4 magic, Layout.u2 parts.minorVersion,
      Layout.u2 parts.majorVersion].flatten).length = 8 := by
    simp [Layout.u4, Layout.u2, Bytes.length_bigEndian]
  have hcount : (Layout.u2 parts.count).length = 2 := Bytes.length_bigEndian 2 _
  have hbytes : parts.bytes = [Layout.u4 magic, Layout.u2 parts.minorVersion,
      Layout.u2 parts.majorVersion].flatten ++
        (Layout.u2 parts.count ++ (bytesOf parts.items ++ parts.behind)) := by
    simp [bytes, header]
  rw [declaredCount, hbytes, List.drop_left' hversions, List.take_left' hcount, Layout.u2,
    Bytes.toNat_bigEndian parts.count.toNat_lt]

theorem spaced_pool (parts : Parts) : parts.pool.Spaced := by
  obtain ⟨hfirst, hafter⟩ := (entries_slotsOf parts.items).spaced
  constructor
  · rw [entries_pool]
    simpa using hfirst
  · intro i hi
    simp only [entries_pool, List.size_toArray] at hi
    simpa [entries_pool] using hafter i hi

/-- A pool has one slot too many exactly if a 64-bit number stands in the last one announced. -/
theorem size_pool (parts : Parts) :
    (parts.pool.size = parts.count.toNat - 1 ∧ ¬ parts.pool.EndsWide (parts.count.toNat - 1)) ∨
    (parts.pool.size = parts.count.toNat ∧ parts.pool.EndsWide (parts.count.toNat - 1)) := by
  have hpositive : parts.count.toNat ≠ 0 := fun hzero =>
    parts.count_ne (UInt16.toNat_inj.mp hzero)
  have hsize : parts.pool.size = (slotsOf parts.items).length := by
    rw [ConstantPool.size, entries_pool, List.size_toArray]
  have hends : parts.pool.EndsWide (parts.count.toNat - 1) ↔
      ∃ i entry, i + 1 = parts.count.toNat - 1 ∧ (slotsOf parts.items)[i]? = some entry ∧
        entry.isWide = true := by
    simp only [ConstantPool.EndsWide, entries_pool, List.getElem?_toArray]
  rw [hsize, hends]
  rcases length_slotsOf parts.fills with ⟨hlength, hlast⟩ | ⟨hlength, hwide⟩
  · refine .inl ⟨hlength, ?_⟩
    rintro ⟨i, entry, hi, hslot, hwide⟩
    rw [hlast i entry hi hslot] at hwide
    exact nomatch hwide
  · exact .inr ⟨by omega, hwide⟩

end Parts

/-- **Slots and the count.** In an accepted pool the empty slots are exactly those behind 64-bit
numbers, each of which has one. The pool has as many slots as its count announces, and the indices
below the count and no others lead to them, exactly if no 64-bit number stands in the last slot
announced. If one does, the pool has one slot more, and the count itself is an index that leads to
it. -/
theorem parse_fitsCount_iff {input : Bytes} {file : ClassFile} (h : parse input = .ok file) :
    file.pool.Spaced ∧
    (file.pool.FitsCount (declaredCount input) ↔ ¬ file.pool.EndsWide (declaredCount input - 1)) ∧
    (file.pool.EndsWide (declaredCount input - 1) →
      file.pool.size = declaredCount input ∧
      ∀ index : UInt16, index.toNat = declaredCount input →
        file.pool.get index = .ok .reserved) := by
  obtain ⟨parts, rfl, -, hbehind⟩ := parse_eq_ok_iff_parts.mp h
  obtain hpool : file.pool = parts.pool := pool_of_readBehind hbehind
  have hpositive : parts.count.toNat ≠ 0 := fun hzero =>
    parts.count_ne (UInt16.toNat_inj.mp hzero)
  rw [hpool, parts.declaredCount_bytes]
  refine ⟨parts.spaced_pool, ?_⟩
  -- either the slots are as many as promised, or the last entry was wide and there is one too many
  rcases parts.size_pool with ⟨hsize, hends⟩ | ⟨hsize, hends⟩
  · have hfits := parts.spaced_pool.fitsCount hsize
    exact ⟨⟨fun _ => hends, fun _ => hfits⟩, fun hwide => absurd hwide hends⟩
  · have hno : ¬ parts.pool.FitsCount parts.count.toNat := fun hfits => by
      have hpromised := hfits.size
      omega
    refine ⟨⟨fun hfits => absurd hfits hno, fun hnot => absurd hends hnot⟩, fun _ => ?_⟩
    exact ⟨hsize, fun index hindex => parts.spaced_pool.get_of_endsWide hends (by omega)⟩

/-- A class `A` that announces four slots. The last of them is the first of a long constant, and a
method handle refers to the second. -/
def overrunFile : Bytes :=
  [0xCA, 0xFE, 0xBA, 0xBE, 0, 0, 0, 52, 0, 5, 7, 0, 2, 1, 0, 1, 65, 15, 1, 0, 5,
    5, 0, 0, 0, 0, 0, 0, 0, 9, 0, 0, 0, 1, 0, 0, 0, 0, 0, 0, 0, 0, 0, 0]

/-- The file is accepted with five slots. -/
theorem overrunFile_slots :
    ∃ file, parse overrunFile = .ok file ∧ declaredCount overrunFile = 5 ∧ file.pool.Spaced ∧
      file.pool.size = 5 ∧ file.pool.get 5 = .ok .reserved := by
  have h : parse overrunFile = .ok ⟨0, 52, ⟨#[.className 2, .utf8 "A", .methodHandle 1 5, .long 9,
      .reserved]⟩, 0, "A", none, [], [], [], []⟩ := by rfl
  obtain ⟨hspaced, -, hoverrun⟩ := parse_fitsCount_iff h
  obtain ⟨hsize, hget⟩ := hoverrun ⟨3, .long 9, rfl, rfl, rfl⟩
  exact ⟨_, h, rfl, hspaced, hsize, hget 5 rfl⟩

/-- **The count is overrun.** The last slot of the file and the index that leads to it are not in
its count. -/
theorem not_fitsCount_overrun :
    ¬ ∀ input file, parse input = .ok file → file.pool.FitsCount (declaredCount input) := by
  intro hall
  have h : parse overrunFile = .ok ⟨0, 52, ⟨#[.className 2, .utf8 "A", .methodHandle 1 5, .long 9,
      .reserved]⟩, 0, "A", none, [], [], [], []⟩ := by rfl
  exact absurd (hall _ _ h).size (by decide)

end ClassFile

end ClassHost
