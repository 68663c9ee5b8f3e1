import ClassHost.Proofs.ClassFile.PoolReferences

/-!
# Method handles

A method handle names a kind of reference, by a number from 1 to 9, and an entry of the pool, which
ought to be a field for the first four kinds and a method or interface method for the others
(`Constant.fitsKind`). It is the one entry whose target depends on another part of it, and the check
looks at neither part: any number may stand for the kind, and the index may lead to any slot.

`parse_handle_replaced` says so of the parser. In an accepted file the bytes of a method handle can
be replaced by those of any other. If the index of the other leads to a slot, of whatever kind and
even an empty one, the file is accepted with the one entry changed. If it does not, the file is
refused for that. So what an accepted file says about its handles is that they point into the pool,
and no more; `not_handlesFit` has a file in which nothing else holds.

The rest of a file does not depend on a handle, since no name is looked up through one
(`ConstantPool.Covers`), and readers that differ only in such a pool take the same bytes off
(`Reader.Follows`).
-/

namespace ClassHost

-- ---------------------------------------------------------------------------
-- What handles ought to refer to
-- ---------------------------------------------------------------------------

/-- The entries that a method handle of a kind can refer to. -/
def Constant.fitsKind (kind : UInt8) : Constant → Bool
  | .field _ => kind ∈ [1, 2, 3, 4]
  | .method _ => kind ∈ [5, 6, 7, 8]
  | .interfaceMethod _ => kind ∈ [6, 7, 9]
  | _ => false

/-- Every method handle refers to an entry that its kind asks for. -/
def ConstantPool.HandlesFit (pool : ConstantPool) : Prop :=
  ∀ kind target, .methodHandle kind target ∈ pool.entries →
    ∃ entry, pool.get target = .ok entry ∧ entry.fitsKind kind = true

-- ---------------------------------------------------------------------------
-- Readers that follow others
-- ---------------------------------------------------------------------------

namespace Reader

variable {α β γ : Type}

/-- Whenever the first reader succeeds, the second takes the same bytes off and returns what `f`
makes of the result. -/
def Follows (f : α → β) (reader : Reader α) (reader' : Reader β) : Prop :=
  ∀ input a rest, reader.run input = .ok (a, rest) → reader'.run input = .ok (f a, rest)

theorem follows_refl (reader : Reader α) : Follows id reader reader :=
  fun _ _ _ h => h

theorem follows_pure {f : α → β} {a : α} {b : β} (h : f a = b) :
    Follows f (pure a) (pure b) := by
  intro input a' rest hrun
  obtain ⟨rfl, rfl⟩ := Prod.mk.inj (Except.ok.inj hrun)
  rw [h]
  rfl

theorem Follows.bind {f : β → γ} {reader reader' : Reader α} {next : α → Reader β}
    {next' : α → Reader γ} (h : Follows id reader reader')
    (hnext : ∀ a, Follows f (next a) (next' a)) :
    Follows f (reader >>= next) (reader' >>= next') := by
  intro input b rest hrun
  obtain ⟨a, middle, hfirst, hsecond⟩ := run_bind_ok hrun
  rw [StateT.run_bind, h input a middle hfirst]
  exact hnext a middle b rest hsecond

theorem Follows.map {reader reader' : Reader α} (h : Follows id reader reader') (g : α → β) :
    Follows id (reader >>= fun a => pure (g a)) (reader' >>= fun a => pure (g a)) :=
  h.bind fun _ => follows_pure rfl

theorem Follows.times {reader reader' : Reader α} (h : Follows id reader reader') (count : Nat)
    (read : Array α) : Follows id (times reader count read) (times reader' count read) := by
  induction count generalizing read with
  | zero => exact follows_pure rfl
  | succ count ih => exact h.bind fun a => ih (read.push a)

theorem Follows.counted {reader reader' : Reader α} (h : Follows id reader reader') :
    Follows id (counted reader) (counted reader') :=
  (follows_refl u16).bind fun count => (h.times count.toNat #[]).map _

theorem follows_lookUp {found found' : Except PoolFault α}
    (h : ∀ a, found = .ok a → found' = .ok a) : Follows id (lookUp found) (lookUp found') := by
  intro input a rest hrun
  cases found with
  | error fault => exact nomatch hrun
  | ok a =>
    rw [h a rfl]
    exact hrun

end Reader

-- ---------------------------------------------------------------------------
-- Pools that differ in a handle
-- ---------------------------------------------------------------------------

namespace ConstantPool

variable {pool pool' : ConstantPool} {index : UInt16} {entry : Constant} {i : Nat}

/-- Whatever can be looked up in the first pool, apart from method handles, can be looked up in the
second. -/
structure Covers (pool pool' : ConstantPool) : Prop where
  size : pool'.size = pool.size
  get : ∀ index entry, pool.get index = .ok entry → entry.tag? ≠ some .methodHandle →
    pool'.get index = .ok entry

namespace Covers

variable (h : Covers pool pool')

include h

theorem utf8 {text : String} (hfound : pool.utf8 index = .ok text) :
    pool'.utf8 index = .ok text := by
  rw [utf8_eq_ok_iff] at hfound ⊢
  exact h.get _ _ hfound (by simp [Constant.tag?])

theorem className {text : String} (hfound : pool.className index = .ok text) :
    pool'.className index = .ok text := by
  obtain ⟨name, hget, hname⟩ := className_eq_ok_iff.mp hfound
  exact className_eq_ok_iff.mpr ⟨name, h.get _ _ hget (by simp [Constant.tag?]), h.utf8 hname⟩

theorem isUtf8 (hfound : pool.IsUtf8 index) : pool'.IsUtf8 index := by
  obtain ⟨text, htext⟩ := isUtf8_iff.mp hfound
  exact isUtf8_iff.mpr ⟨text, h.utf8 htext⟩

theorem namesMember (hfound : pool.NamesMember index) : pool'.NamesMember index := by
  obtain ⟨pair, hpair, hname, hdescriptor⟩ := hfound
  rw [nameAndType_eq_ok_iff] at hpair
  have hpair' := h.get _ _ hpair (by simp [Constant.tag?])
  exact ⟨pair, nameAndType_eq_ok_iff.mpr hpair', h.isUtf8 hname, h.isUtf8 hdescriptor⟩

/-- Entries that lead where they should still do. -/
theorem resolves (hresolves : pool.Resolves entry) : pool'.Resolves entry := by
  cases entry with
  | className index | moduleName index | packageName index | string index | methodType index =>
    exact h.isUtf8 hresolves
  | field member | method member | interfaceMethod member =>
    obtain ⟨⟨name, hname⟩, hmember⟩ := hresolves
    exact ⟨⟨name, h.className hname⟩, h.namesMember hmember⟩
  | nameAndType pair => exact ⟨h.isUtf8 hresolves.1, h.isUtf8 hresolves.2⟩
  | dynamic site | invokeDynamic site => exact h.namesMember hresolves
  | methodHandle kind target =>
    obtain ⟨hpositive, hle⟩ := hresolves
    exact ⟨hpositive, h.size ▸ hle⟩
  | integer | float | long | double | utf8 | reserved => exact trivial

end Covers

/-- The pool with another entry in a slot. -/
def replace (pool : ConstantPool) (i : Nat) (entry : Constant) : ConstantPool :=
  ⟨pool.entries.setIfInBounds i entry⟩

theorem size_replace (pool : ConstantPool) (i : Nat) (entry : Constant) :
    (pool.replace i entry).size = pool.size := by
  simp [replace, size]

section

variable {kind : UInt8} {target : UInt16}

/-- A handle is in nobody's way. -/
theorem covers_replace (hslot : pool.entries[i]? = some (.methodHandle kind target))
    (entry : Constant) : Covers pool (pool.replace i entry) where
  size := size_replace pool i entry
  get := by
    intro index found hget htag
    obtain ⟨hpositive, hplace⟩ := get_eq_ok_iff.mp hget
    have hne : i ≠ index.toNat - 1 := by
      rintro rfl
      obtain rfl := Option.some.inj (hslot.symm.trans hplace)
      exact htag rfl
    refine get_eq_ok_iff.mpr ⟨hpositive, ?_⟩
    rw [replace, Array.getElem?_setIfInBounds_ne hne]
    exact hplace

/-- Of a handle the check looks at nothing but whether its index leads to a slot. -/
theorem checkEntry_handle (pool : ConstantPool) (kind : UInt8) (target : UInt16) :
    pool.checkEntry (.methodHandle kind target) =
      if target = 0 then .error .zeroIndex
      else if target.toNat ≤ pool.size then .ok ()
      else .error (.outOfRange target.toNat pool.size) := by
  have hsize : pool.size = pool.entries.size := rfl
  rw [checkEntry, get]
  by_cases hzero : target = 0
  · rw [if_pos hzero, if_pos hzero]
    rfl
  · have hnat : target.toNat ≠ 0 := fun h => hzero (UInt16.toNat_inj.mp h)
    rw [if_neg hzero, if_neg hzero]
    -- whether the slot is there is all that is asked of it
    split
    · rename_i hslot
      have hlt := (Array.getElem?_eq_some_iff.mp hslot).1
      rw [if_pos (by omega)]
      rfl
    · rename_i hslot
      have hle := Array.getElem?_eq_none_iff.mp hslot
      rw [if_neg (by omega)]
      rfl

/-- With another handle in the place of one, what becomes of a good pool is decided by the other. -/
theorem check_replace (hcheck : pool.check = .ok ())
    (hslot : pool.entries[i]? = some (.methodHandle kind target)) (kind' : UInt8)
    (target' : UInt16) :
    (pool.replace i (.methodHandle kind' target')).check =
      pool.checkEntry (.methodHandle kind' target') := by
  have hcovers := covers_replace hslot (.methodHandle kind' target')
  -- the other entries refer to the same slots as before, whatever the handle is now
  have hothers : ∀ others : List Constant, (∀ entry ∈ others, entry ∈ pool.entries.toList) →
      forM others (pool.replace i (.methodHandle kind' target')).checkEntry = .ok () := by
    intro others hsub
    refine forM_checkEntry fun entry hmem => checkEntry_of_resolves (hcovers.resolves ?_)
    exact resolves_of_check hcheck (Array.mem_toList_iff.mp (hsub entry hmem))
  have hlt : i < pool.entries.toList.length := (Array.getElem?_eq_some_iff.mp hslot).1
  have hentries : (pool.replace i (.methodHandle kind' target')).entries.toList =
      pool.entries.toList.take i ++
        .methodHandle kind' target' :: pool.entries.toList.drop (i + 1) := by
    rw [replace, Array.toList_setIfInBounds, List.set_eq_take_append_cons_drop, if_pos hlt]
  have hsame : (pool.replace i (.methodHandle kind' target')).checkEntry
      (.methodHandle kind' target') = pool.checkEntry (.methodHandle kind' target') := by
    rw [checkEntry_handle, checkEntry_handle, size_replace]
  rw [check, List.forM_eq_forM, hentries, List.forM_append,
    hothers _ fun _ => List.mem_of_mem_take, List.forM_cons, hsame,
    hothers _ fun _ => List.mem_of_mem_drop]
  cases pool.checkEntry (.methodHandle kind' target') <;> rfl

end

end ConstantPool

-- ---------------------------------------------------------------------------
-- Entries in a file
-- ---------------------------------------------------------------------------

namespace ClassFile

open Reader

section

variable {items : List PoolEntry}

/-- An entry stands in the first of its slots. -/
theorem slot_of_item {item : PoolEntry} {i : Nat} {entry : Constant}
    (hslot : item.slots[i]? = some entry) (hheld : entry ≠ .reserved) :
    i = 0 ∧ item.entry = entry := by
  by_cases hwide : item.entry.isWide = true
  · rw [slots_of_wide hwide] at hslot
    match i with
    | 0 => exact ⟨rfl, Option.some.inj hslot⟩
    | 1 => exact absurd (Option.some.inj hslot).symm hheld
    | i + 2 => exact nomatch hslot
  · rw [slots_of_narrow (by simpa using hwide)] at hslot
    match i with
    | 0 => exact ⟨rfl, Option.some.inj hslot⟩
    | i + 1 => exact nomatch hslot

/-- What stands in a slot was read as an entry, unless the slot belongs to the one before. -/
theorem exists_item {i : Nat} {entry : Constant} (hslot : (slotsOf items)[i]? = some entry)
    (hheld : entry ≠ .reserved) :
    ∃ front item behind, items = front ++ item :: behind ∧ item.entry = entry ∧
      (slotsOf front).length = i := by
  induction items generalizing i with
  | nil => exact nomatch hslot
  | cons item items ih =>
    rw [slotsOf_cons] at hslot
    rcases Nat.lt_or_ge i item.slots.length with hlt | hge
    · rw [List.getElem?_append_left hlt] at hslot
      obtain ⟨rfl, hentry⟩ := slot_of_item hslot hheld
      exact ⟨[], item, items, rfl, hentry, rfl⟩
    · rw [List.getElem?_append_right hge] at hslot
      obtain ⟨front, found, behind, rfl, hentry, hlength⟩ := ih hslot
      refine ⟨item :: front, found, behind, rfl, hentry, ?_⟩
      rw [slotsOf_cons, List.length_append]
      omega

/-- An entry of the same width changes one slot. -/
theorem slotsOf_exchange (front behind : List PoolEntry) {item item' : PoolEntry}
    (hwidth : item'.entry.isWide = item.entry.isWide) :
    slotsOf (front ++ item' :: behind) =
      (slotsOf (front ++ item :: behind)).set (slotsOf front).length item'.entry := by
  have hslots : item'.slots = item.slots.set 0 item'.entry := by
    rw [PoolEntry.slots, PoolEntry.slots, hwidth]
    split <;> rfl
  have hpositive : 0 < item.slots.length := by
    rw [PoolEntry.slots]
    split <;> exact Nat.succ_pos _
  rw [slotsOf_append, slotsOf_append, List.set_append_right _ _ (Nat.le_refl _), Nat.sub_self,
    slotsOf_cons, slotsOf_cons, List.set_append_left _ _ hpositive, hslots]

/-- The loop goes on in the same way after an entry of the same width. -/
theorem Fills.exchange {count : Nat} {front behind : List PoolEntry} {item item' : PoolEntry}
    (h : Fills count (front ++ item :: behind)) (hwidth : item'.entry.isWide = item.entry.isWide) :
    Fills count (front ++ item' :: behind) := by
  induction front generalizing count with
  | nil =>
    cases h with
    | narrow hnarrow hrest => exact .narrow (hwidth.trans hnarrow) hrest
    | wide hwide hrest => exact .wide (hwidth.trans hwide) hrest
    | overrun hwide => exact .overrun (hwidth.trans hwide)
  | cons first front ih =>
    rw [List.cons_append] at h
    generalize hitems : front ++ item :: behind = items at h
    cases h with
    | narrow hnarrow hrest => exact .narrow hnarrow (ih (hitems ▸ hrest))
    | wide hwide hrest => exact .wide hwide (ih (hitems ▸ hrest))
    | overrun hwide => exact absurd hitems (by simp)

end

/-- A method handle, on the bytes that it is written as. -/
def handleItem (kind : UInt8) (target : UInt16) : PoolEntry where
  bytes := Layout.constant (.methodHandle kind target)
  entry := .methodHandle kind target
  reads := reads_readConstant nofun nofun

theorem tagOfByte_methodHandle {byte : UInt8}
    (h : ConstantTag.ofByte? byte = some .methodHandle) : byte = 15 := by
  apply UInt8.toNat_inj.mp
  unfold ConstantTag.ofByte? at h
  split at h <;> simp_all

/-- There is one way to write a method handle. -/
theorem bytes_of_handle {item : PoolEntry} {kind : UInt8} {target : UInt16}
    (h : item.entry = .methodHandle kind target) :
    item.bytes = Layout.constant (.methodHandle kind target) := by
  obtain ⟨byte, tag, behind, hbytes, htag, hentry, hrun⟩ := item.exists_tag
  rw [h] at hentry hrun
  obtain rfl := Option.some.inj hentry
  obtain rfl := tagOfByte_methodHandle htag
  obtain ⟨kind', _, hkind, hsecond⟩ := run_bind_ok hrun
  obtain rfl := run_u8_ok hkind
  obtain ⟨target', htarget, hsame⟩ := run_map_ok hsecond
  obtain rfl := run_u16_ok htarget
  obtain ⟨rfl, rfl⟩ := Constant.methodHandle.inj hsame
  rw [hbytes, List.append_nil]
  rfl

-- ---------------------------------------------------------------------------
-- The rest of a file
-- ---------------------------------------------------------------------------

section

variable {pool pool' : ConstantPool} (h : pool.Covers pool')

include h

theorem follows_readAttribute : Follows id (readAttribute pool) (readAttribute pool') :=
  (follows_refl u16).bind fun _ => (follows_lookUp fun _ => h.utf8).bind fun _ => follows_refl _

theorem follows_readMember (known : AccessFlags) :
    Follows id (readMember pool known) (readMember pool' known) :=
  (follows_refl u16).bind fun _ => (follows_refl u16).bind fun _ =>
    (follows_lookUp fun _ => h.utf8).bind fun _ => (follows_refl u16).bind fun _ =>
      (follows_lookUp fun _ => h.utf8).bind fun _ => (follows_readAttribute h).counted.map _

theorem follows_readSuperClass : Follows id (readSuperClass pool) (readSuperClass pool') := by
  refine (follows_refl u16).bind fun index => ?_
  split
  · exact follows_refl _
  · exact (follows_lookUp fun _ => h.className).map _

theorem follows_readClassName :
    Follows id (do lookUp (pool.className (← u16))) (do lookUp (pool'.className (← u16))) :=
  (follows_refl u16).bind fun _ => follows_lookUp fun _ => h.className

/-- Everything behind the pool is read off the same bytes, with the same names. -/
theorem follows_readBehind (minorVersion majorVersion : UInt16) :
    Follows (fun file : ClassFile => { file with pool := pool' })
      (readBehind minorVersion majorVersion pool) (readBehind minorVersion majorVersion pool') := by
  refine (follows_refl u16).bind fun flags => (follows_refl u16).bind fun index => ?_
  refine (follows_lookUp fun _ => h.className).bind fun thisClass => ?_
  refine (follows_readSuperClass h).bind fun superClass => ?_
  refine (follows_readClassName h).counted.bind fun interfaces => ?_
  refine (follows_readMember h .knownOfField).counted.bind fun fields => ?_
  refine (follows_readMember h .knownOfMethod).counted.bind fun methods => ?_
  exact (follows_readAttribute h).counted.bind fun attributes => follows_pure rfl

end

-- ---------------------------------------------------------------------------
-- Accepted files
-- ---------------------------------------------------------------------------

/-- In the place of a handle, any other can be read, and nothing else of a file changes by that. -/
theorem Parts.exists_exchange (parts : Parts) {i : Nat} {kind : UInt8} {target : UInt16}
    (hslot : parts.pool.entries[i]? = some (.methodHandle kind target)) :
    ∃ front behind, parts.bytes = front ++ Layout.constant (.methodHandle kind target) ++ behind ∧
      ∀ kind' target', ∃ parts' : Parts,
        parts'.bytes = front ++ Layout.constant (.methodHandle kind' target') ++ behind ∧
        parts'.pool = parts.pool.replace i (.methodHandle kind' target') ∧
        parts'.minorVersion = parts.minorVersion ∧ parts'.majorVersion = parts.majorVersion ∧
        parts'.behind = parts.behind := by
  rw [parts.entries_pool, List.getElem?_toArray] at hslot
  obtain ⟨minorVersion, majorVersion, count, items, rest, hcount, hfills⟩ := parts
  -- the handle is one of the items the pool was filled from, and its bytes can be exchanged
  obtain ⟨before, item, after, rfl, hentry, rfl⟩ := exists_item hslot nofun
  have hwidth : ∀ kind' target', (handleItem kind' target').entry.isWide = item.entry.isWide := by
    intro kind' target'
    rw [hentry]
    rfl
  refine ⟨Parts.header ⟨minorVersion, majorVersion, count, _, rest, hcount, hfills⟩ ++
    bytesOf before, bytesOf after ++ rest, ?_, fun kind' target' =>
    ⟨⟨minorVersion, majorVersion, count, before ++ handleItem kind' target' :: after, rest, hcount,
      hfills.exchange (hwidth kind' target')⟩, ?_, ?_, rfl, rfl, rfl⟩⟩
  · simp [Parts.bytes, bytes_of_handle hentry]
  · simp [Parts.bytes, Parts.header, handleItem]
  · rw [Parts.pool, appendEntries, ConstantPool.replace, Parts.entries_pool,
      slotsOf_exchange before after (hwidth kind' target')]
    simp [ConstantPool.empty, handleItem]

/-- **The check of handles.** A method handle of an accepted file leads to some slot. Put any other
method handle in its place: if the index of the other leads to a slot, the file is accepted with
just this entry changed, whatever kind the other names and whatever is in the slot; if it does not,
the file is refused for it. -/
theorem parse_handle_replaced {input : Bytes} {file : ClassFile} (h : parse input = .ok file)
    {i : Nat} {kind : UInt8} {target : UInt16}
    (hslot : file.pool.entries[i]? = some (.methodHandle kind target)) :
    (∃ entry, file.pool.get target = .ok entry) ∧
    ∃ front behind, input = front ++ Layout.constant (.methodHandle kind target) ++ behind ∧
      ∀ kind' target',
        parse (front ++ Layout.constant (.methodHandle kind' target') ++ behind) =
          if target' = 0 then .error (.pool .zeroIndex)
          else if target'.toNat ≤ file.pool.size then
            .ok { file with pool := file.pool.replace i (.methodHandle kind' target') }
          else .error (.pool (.outOfRange target'.toNat file.pool.size)) := by
  obtain ⟨parts, rfl, hcheck, hbehind⟩ := parse_eq_ok_iff_parts.mp h
  obtain hpool : file.pool = parts.pool := pool_of_readBehind hbehind
  rw [hpool] at hslot ⊢
  have hresolves := ConstantPool.resolves_of_check hcheck (Array.mem_of_getElem? hslot)
  refine ⟨ConstantPool.exists_get_iff.mpr hresolves, ?_⟩
  obtain ⟨front, behind, hbytes, hexchange⟩ := parts.exists_exchange hslot
  refine ⟨front, behind, hbytes, fun kind' target' => ?_⟩
  obtain ⟨parts', hbytes', hpool', hminor, hmajor, hrest⟩ := hexchange kind' target'
  have hcheck' := ConstantPool.check_replace hcheck hslot kind' target'
  rw [ConstantPool.checkEntry_handle, ← hpool'] at hcheck'
  rw [← hbytes']
  split
  · rename_i hzero
    rw [if_pos hzero] at hcheck'
    exact parts'.parse_of_fault hcheck'
  · rename_i hzero
    rw [if_neg hzero] at hcheck'
    split
    · rename_i hle
      rw [if_pos hle] at hcheck'
      refine parts'.parse_eq_ok_iff.mpr ⟨hcheck', ?_⟩
      -- no part behind the pool looks at a handle
      rw [hminor, hmajor, hrest, hpool']
      exact follows_readBehind (ConstantPool.covers_replace hslot _) _ _ _ _ _ hbehind
    · rename_i hout
      rw [if_neg hout] at hcheck'
      exact parts'.parse_of_fault hcheck'

/-- A class `A` with a long constant and two handles: one for a field, which refers to the second
slot of the constant, and one of no kind there is, which refers to a text. -/
def strayHandlesFile : Bytes :=
  [0xCA, 0xFE, 0xBA, 0xBE, 0, 0, 0, 52, 0, 7, 7, 0, 2, 1, 0, 1, 65,
    5, 0, 0, 0, 0, 0, 0, 0, 9, 15, 2, 0, 4, 15, 0, 0, 2, 0, 0, 0, 1, 0, 0, 0, 0, 0, 0, 0, 0, 0, 0]

theorem parse_strayHandlesFile :
    parse strayHandlesFile = .ok ⟨0, 52, ⟨#[.className 2, .utf8 "A", .long 9, .reserved,
      .methodHandle 2 4, .methodHandle 0 2]⟩, 0, "A", none, [], [], [], []⟩ := by
  rfl

/-- The first handle can be replaced by one for an interface method that refers to the second
handle, and not by one that refers to nothing. -/
theorem strayHandlesFile_replaced :
    ∃ file, parse strayHandlesFile = .ok file ∧
    ∃ front behind, strayHandlesFile = front ++ Layout.constant (.methodHandle 2 4) ++ behind ∧
      parse (front ++ Layout.constant (.methodHandle 9 6) ++ behind) =
        .ok { file with pool := file.pool.replace 4 (.methodHandle 9 6) } ∧
      parse (front ++ Layout.constant (.methodHandle 9 7) ++ behind) =
        .error (.pool (.outOfRange 7 6)) := by
  obtain ⟨-, front, behind, hinput, hreplaced⟩ :=
    parse_handle_replaced parse_strayHandlesFile (i := 4) rfl
  exact ⟨_, parse_strayHandlesFile, front, behind, hinput, hreplaced 9 6, hreplaced 9 7⟩

/-- **Handles may lead anywhere.** The file's first handle leads to an empty slot. -/
theorem not_handlesFit : ¬ ∀ input file, parse input = .ok file → file.pool.HandlesFit := by
  intro hall
  obtain ⟨entry, hget, hfits⟩ :=
    hall _ _ parse_strayHandlesFile 2 4 (Array.mem_of_getElem? (i := 4) rfl)
  obtain rfl : .reserved = entry := Except.ok.inj hget
  exact absurd hfits (by decide)

end ClassFile

end ClassHost
