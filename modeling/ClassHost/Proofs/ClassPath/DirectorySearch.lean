import ClassHost.ClassPath
import Mathlib.Data.String.Basic
import Mathlib.Data.List.Basic
import Mathlib.Data.List.ModifyLast

/-!
# Looking below a directory

Names of classes come from class files, which anyone can write. A directory of a class path is asked
for a name only if its parts between slashes all lead downwards, and then it is asked for one path.

What a path says is a list of parts with slashes between them (`FilePath.Spells`). Each text has
exactly one such list, the one that `FilePath.segments` computes (`spells_iff`), so paths can be
compared part by part: `segments_join` says what putting a name behind a root does to the parts, and
`segments_append` what an extension does.

Which path a lookup looks at is said without the lookup's code (`Entry.Asks`): the answer depends on
what the file system has at that path.

Main results:

* `directory_search_exact` — a directory looks at the file system exactly for names whose parts all
  lead downwards and which have no other separator in them. Then it looks at the one path that has
  the parts of the root and behind them those of the name; unlike names have unlike paths.
* `content_below_root` — in a tree of files, what is found lies below the place of the root.
-/

namespace ClassHost

namespace FilePath

variable {parts parts' : List String} {path root name : String}

-- ---------------------------------------------------------------------------
-- Splitting at slashes
-- ---------------------------------------------------------------------------

/-- The scan for slashes, between two characters: `l` has been given out, `m` is the part so far. -/
theorem splitOnAux_slash (l m r : List Char) (acc : List String) :
    String.splitOnAux (.ofList (l ++ m ++ r)) "/" ⟨String.utf8Len l⟩
        ⟨String.utf8Len l + String.utf8Len m⟩ 0 acc =
      acc.reverse ++ (List.splitOnPPrepend (· == '/') r m.reverse).map .ofList := by
  -- `l` has been split off already, `m` is the part being scanned and `r` is still to come
  induction r generalizing l m acc with
  | nil =>
    have hpart := String.extract_of_valid l m []
    have hend : String.Pos.Raw.atEnd (.ofList (l ++ m ++ []))
        ⟨String.utf8Len l + String.utf8Len m⟩ = true := by
      rw [String.atEnd_iff, String.rawEndPos_ofList]
      simp
    rw [String.splitOnAux.eq_def, if_pos hend]
    simpa using hpart
  | cons c r ih =>
    have hget : String.Pos.Raw.get (.ofList (l ++ m ++ c :: r))
        ⟨String.utf8Len l + String.utf8Len m⟩ = c := by
      simpa using String.get_of_valid (l ++ m) (c :: r)
    have hnext : String.Pos.Raw.next (.ofList (l ++ m ++ c :: r))
        ⟨String.utf8Len l + String.utf8Len m⟩ =
          ⟨String.utf8Len l + String.utf8Len m + c.utf8Size⟩ := by
      simpa using String.next_of_valid (l ++ m) c r
    have hinside : ¬ String.Pos.Raw.atEnd (.ofList (l ++ m ++ c :: r))
        ⟨String.utf8Len l + String.utf8Len m⟩ = true := by
      have hsize := c.utf8Size_pos
      rw [String.atEnd_iff, String.rawEndPos_ofList, String.Pos.Raw.le_iff]
      simp only [String.utf8Len_append, String.utf8Len_cons]
      omega
    have hslash : String.Pos.Raw.get "/" 0 = '/' := by decide
    rw [String.splitOnAux.eq_def, if_neg hinside, hget, hslash, List.splitOnPPrepend_cons_eq_if]
    by_cases hc : c = '/'
    · -- the part ends; the scan stands behind the slash, and goes back by its width to cut it out
      subst hc
      have hpart := String.extract_of_valid l m ('/' :: r)
      have hback : String.Pos.Raw.unoffsetBy
          ⟨String.utf8Len l + String.utf8Len m + '/'.utf8Size⟩ (String.Pos.Raw.next "/" 0) =
            ⟨String.utf8Len l + String.utf8Len m⟩ := rfl
      have hrest := ih (l ++ m ++ ['/']) [] (.ofList m :: acc)
      dsimp only
      rw [if_pos (beq_self_eq_true _), if_pos (by decide), if_pos (beq_self_eq_true _), hnext, hback,
        hpart]
      simpa [Nat.add_assoc] using hrest
    · have hother : (c == '/') = false := by simpa using hc
      have hback : String.Pos.Raw.unoffsetBy ⟨String.utf8Len l + String.utf8Len m⟩ 0 =
          ⟨String.utf8Len l + String.utf8Len m⟩ := rfl
      have hrest := ih l (m ++ [c]) acc
      dsimp only
      rw [hother, if_neg (by decide), if_neg (by decide), hback, hnext]
      simpa [Nat.add_assoc] using hrest

theorem segments_eq (path : String) :
    segments path = (path.toList.splitOn '/').map String.ofList := by
  have hscan := splitOnAux_slash [] [] path.toList []
  simpa [segments, String.splitOn, List.splitOn] using hscan

theorem notMem_of_mem_splitOn (c : Char) (cs : List Char) : ∀ part ∈ cs.splitOn c, c ∉ part := by
  induction cs with
  | nil => simp
  | cons d cs ih =>
    intro part hpart
    rw [List.splitOn_cons_eq_if_modifyHead] at hpart
    by_cases hd : (d == c) = true
    · rw [if_pos hd] at hpart
      rcases List.mem_cons.mp hpart with rfl | hpart
      · exact List.not_mem_nil
      · exact ih part hpart
    · rw [if_neg hd] at hpart
      obtain ⟨first, rest, hsplit⟩ := List.exists_cons_of_ne_nil (List.splitOn_ne_nil c cs)
      rw [hsplit] at hpart ih
      rcases List.mem_cons.mp hpart with rfl | hpart
      · have hne : c ≠ d := fun heq => hd (by simp [heq])
        simpa [hne] using ih first List.mem_cons_self
      · exact ih part (List.mem_cons_of_mem first hpart)

-- ---------------------------------------------------------------------------
-- What a path says
-- ---------------------------------------------------------------------------

/-- The path has these parts between its slashes. -/
structure Spells (parts : List String) (path : String) : Prop where
  nonempty : parts ≠ []
  whole : ∀ part ∈ parts, '/' ∉ part.toList
  text : path = "/".intercalate parts

theorem toList_intercalate_slash (parts : List String) :
    ("/".intercalate parts).toList = ['/'].intercalate (parts.map String.toList) := by
  have hslash : "/".toList = ['/'] := by decide
  rw [String.toList_intercalate, hslash]

/-- A path has one list of parts, the one that it is split into. -/
theorem spells_iff : Spells parts path ↔ segments path = parts := by
  constructor
  · intro h
    have hwhole : ∀ cs ∈ parts.map String.toList, '/' ∉ cs := by
      intro cs hcs
      obtain ⟨part, hpart, rfl⟩ := List.mem_map.mp hcs
      exact h.whole part hpart
    -- no part has a slash in it, so splitting undoes the joining
    have hsplit := List.splitOn_intercalate '/' hwhole (by simpa using h.nonempty)
    rw [segments_eq, h.text, toList_intercalate_slash, hsplit, List.map_map]
    simp
  · rintro rfl
    rw [segments_eq]
    constructor
    · simp
    · intro part hpart
      obtain ⟨cs, hcs, rfl⟩ := List.mem_map.mp hpart
      rw [String.toList_ofList]
      exact notMem_of_mem_splitOn '/' path.toList cs hcs
    · apply String.toList_inj.mp
      have hparts : ((path.toList.splitOn '/').map String.ofList).map String.toList =
          path.toList.splitOn '/' := by simp
      rw [toList_intercalate_slash, hparts, List.intercalate_splitOn]

theorem spells_segments (path : String) : Spells (segments path) path := spells_iff.mpr rfl

theorem segments_empty : segments "" = [""] := by
  rw [segments_eq]
  rfl

theorem segments_ne_nil (path : String) : segments path ≠ [] := (spells_segments path).nonempty

/-- A slash between two paths separates their parts. -/
theorem segments_append_slash (front behind : String) :
    segments (front ++ "/" ++ behind) = segments front ++ segments behind := by
  have hlist : (front ++ "/" ++ behind).toList = front.toList ++ '/' :: behind.toList := by simp
  simp only [segments_eq, hlist, List.splitOn_append_cons_self, List.map_append]

/-- An extension belongs to the last part. -/
theorem segments_append {extension : String} (h : '/' ∉ extension.toList) (path : String) :
    segments (path ++ extension) = (segments path).modifyLast (· ++ extension) := by
  have hspells := spells_segments path
  -- only the last part grows, by a text without a slash
  obtain ⟨front, last, hparts⟩ := (List.eq_nil_or_concat' _).resolve_left (segments_ne_nil path)
  rw [hparts] at hspells
  rw [hparts, List.modifyLast_concat]
  apply spells_iff.mp
  constructor
  · simp
  · intro part hpart
    rcases List.mem_append.mp hpart with hpart | hpart
    · exact hspells.whole part (List.mem_append_left _ hpart)
    · have hlast := hspells.whole last (by simp)
      rw [List.mem_singleton.mp hpart, String.toList_append]
      simp [hlast, h]
  · rw [hspells.text]
    by_cases hfront : front = []
    · simp [hfront]
    · rw [String.intercalate_append_of_ne_nil hfront (by simp),
        String.intercalate_append_of_ne_nil hfront (by simp)]
      simp [String.append_assoc]

/-- The parts of a root that names are put behind: a slash at its end opens no part. -/
def above (root : String) : List String :=
  if (segments root).getLast? = some "" then (segments root).dropLast else segments root

theorem above_empty : above "" = [] := by
  rw [above, segments_empty]
  rfl

theorem above_slash (front : String) : above (front ++ "/") = segments front := by
  have hslash : segments (front ++ "/") = segments front ++ [""] := by
    have happend := segments_append_slash front ""
    rwa [String.append_empty, segments_empty] at happend
  simp [above, hslash]

theorem above_of_ne_slash (hempty : root ≠ "") (hslash : root.toList.getLast? ≠ some '/') :
    above root = segments root := by
  unfold above
  rw [if_neg]
  intro hlast
  obtain ⟨front, hparts⟩ := List.getLast?_eq_some_iff.mp hlast
  have htext := (spells_segments root).text
  rw [hparts] at htext
  by_cases hfront : front = []
  · rw [hfront] at htext
    exact hempty (by simpa using htext)
  · -- then the root ends in the slash in front of the empty part
    rw [String.intercalate_append_of_ne_nil hfront (by simp)] at htext
    exact hslash (by simp [htext])

/-- **Joining.** The parts of a name come behind those of the root. -/
theorem segments_join (root name : String) :
    segments (join root name) = above root ++ segments name := by
  unfold join
  by_cases hempty : root = ""
  · subst hempty
    simp [above_empty]
  · by_cases hslash : root.toList.getLast? = some '/'
    · obtain ⟨cs, hcs⟩ := List.getLast?_eq_some_iff.mp hslash
      obtain rfl : root = String.ofList cs ++ "/" := by
        apply String.toList_inj.mp
        simp [hcs]
      rw [above_slash, ← segments_append_slash]
      simp
    · rw [above_of_ne_slash hempty hslash, ← segments_append_slash]
      simp [hempty, hslash]

end FilePath

-- ---------------------------------------------------------------------------
-- Which paths are looked at
-- ---------------------------------------------------------------------------

namespace ClassPath

open FilePath

variable {root name path part : String} {parts : List String}

/-- What a lookup in one place answers depends on what the file system has at the path: there are
two file systems that differ at no other path and get different answers. -/
def Entry.Asks (entry : Entry) (name path : String) : Prop :=
  ∃ files files' : FileSystem, (∀ other, other ≠ path → files other = files' other) ∧
    entry.search files name ≠ entry.search files' name

/-- A part of a path that leads downwards. -/
def Plain (part : String) : Prop := part ≠ "" ∧ part ≠ "." ∧ part ≠ ".."

instance (part : String) : Decidable (Plain part) :=
  inferInstanceAs (Decidable (part ≠ "" ∧ part ≠ "." ∧ part ≠ ".."))

theorem isRelativeName_iff : isRelativeName name = true ↔
    (∀ part ∈ segments name, Plain part) ∧ '\\' ∉ name.toList ∧ '\x00' ∉ name.toList := by
  have hspecial : (!name.toList.any fun c => c = '\\' || c = '\x00') = true ↔
      '\\' ∉ name.toList ∧ '\x00' ∉ name.toList := by
    simp only [Bool.not_eq_true', List.any_eq_false, Bool.or_eq_true, decide_eq_true_eq, not_or]
    constructor
    · intro h
      exact ⟨fun hmem => (h _ hmem).1 rfl, fun hmem => (h _ hmem).2 rfl⟩
    · rintro ⟨hback, hnul⟩ c hc
      constructor
      · rintro rfl
        exact hback hc
      · rintro rfl
        exact hnul hc
  unfold isRelativeName Plain
  rw [Bool.and_eq_true, hspecial, List.all_eq_true]
  simp only [Bool.and_eq_true, decide_eq_true_eq, and_assoc]
  constructor
  · rintro ⟨hback, hnul, hparts⟩
    exact ⟨hparts, hback, hnul⟩
  · rintro ⟨hparts, hback, hnul⟩
    exact ⟨hback, hnul, hparts⟩

/-- A path that begins with a slash has an empty part in front of it. -/
theorem not_absolute_of_plain (h : ∀ part ∈ segments name, Plain part) :
    name.toList.head? ≠ some '/' := by
  intro hhead
  obtain ⟨rest, hrest⟩ := List.head?_eq_some_iff.mp hhead
  obtain rfl : name = "" ++ "/" ++ String.ofList rest := by
    apply String.toList_inj.mp
    simp [hrest]
  rw [segments_append_slash, segments_empty] at h
  exact (h "" (by simp)).1 rfl

theorem search_of_relative (h : isRelativeName name = true) (files : FileSystem) :
    (Entry.directory root).search files name =
      (files (classFilePath root name)).map fun bytes =>
        ⟨.directory (classFilePath root name), bytes⟩ :=
  if_pos h

theorem search_of_not_relative (h : ¬ isRelativeName name = true) (files : FileSystem) :
    (Entry.directory root).search files name = none :=
  if_neg h

/-- The one path that is looked at. -/
theorem asks_directory_iff : (Entry.directory root).Asks name path ↔
    isRelativeName name = true ∧ path = classFilePath root name := by
  constructor
  · rintro ⟨files, files', hsame, hdiffer⟩
    by_cases hrelative : isRelativeName name = true
    · refine ⟨hrelative, ?_⟩
      by_contra hne
      have hpath := hsame _ (Ne.symm hne)
      rw [search_of_relative hrelative, search_of_relative hrelative, hpath] at hdiffer
      exact hdiffer rfl
    · rw [search_of_not_relative hrelative, search_of_not_relative hrelative] at hdiffer
      exact absurd rfl hdiffer
  · rintro ⟨hrelative, rfl⟩
    refine ⟨fun _ => none, fun other => if other = classFilePath root name then some [] else none,
      fun other hother => (if_neg hother).symm, ?_⟩
    rw [search_of_relative hrelative, search_of_relative hrelative]
    simp

theorem classFilePath_injective (root : String) : Function.Injective (classFilePath root) := by
  intro name name' h
  unfold classFilePath join at h
  split at h
  · exact (String.append_left_inj _).mp ((String.append_right_inj _).mp h)
  · exact (String.append_left_inj _).mp ((String.append_right_inj _).mp h)

/-- The parts of the file: those of the root, and those of the name with the extension at its end. -/
theorem segments_classFilePath (root name : String) :
    segments (classFilePath root name) =
      above root ++ (segments name).modifyLast (· ++ ".class") := by
  rw [classFilePath, segments_join, segments_append (by decide)]

theorem plain_append_class (part : String) : Plain (part ++ ".class") := by
  have hlong : ∀ text : String, text.length < 6 → part ++ ".class" ≠ text := by
    rintro text hshort rfl
    have hclass : ".class".length = 6 := by decide
    rw [String.length_append, hclass] at hshort
    omega
  exact ⟨hlong "" (by decide), hlong "." (by decide), hlong ".." (by decide)⟩

/-- An extension keeps a name on its way downwards. -/
theorem plain_of_mem_modifyLast (h : ∀ part ∈ parts, Plain part) :
    ∀ part ∈ parts.modifyLast (· ++ ".class"), Plain part := by
  rcases List.eq_nil_or_concat' parts with rfl | ⟨front, last, rfl⟩
  · exact fun part hpart => h part hpart
  · rw [List.modifyLast_concat]
    intro part hpart
    rcases List.mem_append.mp hpart with hpart | hpart
    · exact h part (List.mem_append_left _ hpart)
    · rw [List.mem_singleton.mp hpart]
      exact plain_append_class last

/-- **Lookups stay below the root.** Whatever the root is, a directory looks at the file system for
a name exactly if all parts of the name between slashes lead downwards and it has neither a
backslash nor a NUL in it. The path that it looks at then has the parts of the root and behind them
those of the name, the last with its extension; the name is not absolute, and its parts still lead
downwards. The answer is what is there. For any other name the answer is that there is nothing. No
two names share a path. -/
theorem directory_search_exact (root : String) :
    (∀ name, ∃ parts, Spells parts name) ∧
    (∀ name parts, Spells parts name →
      ((∃ path, (Entry.directory root).Asks name path) ↔
        (∀ part ∈ parts, Plain part) ∧ '\\' ∉ name.toList ∧ '\x00' ∉ name.toList) ∧
      (∀ path, (Entry.directory root).Asks name path →
        Spells (above root ++ parts.modifyLast (· ++ ".class")) path ∧
        name.toList.head? ≠ some '/' ∧
        (∀ part ∈ parts.modifyLast (· ++ ".class"), Plain part) ∧
        ∀ files, (Entry.directory root).search files name =
          (files path).map fun bytes => ⟨.directory path, bytes⟩) ∧
      ((¬ ∃ path, (Entry.directory root).Asks name path) →
        ∀ files, (Entry.directory root).search files name = none)) ∧
    (∀ name name' path, (Entry.directory root).Asks name path →
      (Entry.directory root).Asks name' path → name = name') := by
  refine ⟨fun name => ⟨_, spells_segments name⟩, fun name parts hspells => ?_,
    fun name name' path hasks hasks' => ?_⟩
  · obtain rfl := spells_iff.mp hspells
    -- the one path asked for is the name's own, if the name is relative
    have hasked : (∃ path, (Entry.directory root).Asks name path) ↔ isRelativeName name = true := by
      simp [asks_directory_iff]
    refine ⟨hasked.trans isRelativeName_iff, fun path hasks => ?_, fun hnone => ?_⟩
    · obtain ⟨hrelative, rfl⟩ := asks_directory_iff.mp hasks
      obtain ⟨hplain, -⟩ := isRelativeName_iff.mp hrelative
      exact ⟨spells_iff.mpr (segments_classFilePath root name), not_absolute_of_plain hplain,
        plain_of_mem_modifyLast hplain, search_of_relative hrelative⟩
    · exact search_of_not_relative fun hrelative => hnone (hasked.mpr hrelative)
  · obtain ⟨-, rfl⟩ := asks_directory_iff.mp hasks
    exact classFilePath_injective root (asks_directory_iff.mp hasks').2

/-- A name with dots in all places where they do no harm is looked up, below a root with a slash at
its end; the same name behind a doubled slash is not. -/
theorem dottedName_search :
    (∃ path, (Entry.directory "lib/").Asks "..a/.b./..." path ∧
      Spells ["lib", "..a", ".b.", "....class"] path) ∧
    ¬ ∃ path, (Entry.directory "lib/").Asks "..a//.b./..." path := by
  obtain ⟨-, hexact, -⟩ := directory_search_exact "lib/"
  have hroot : above "lib/" = ["lib"] := by
    rw [above, segments_eq]
    rfl
  constructor
  · have hspells : Spells ["..a", ".b.", "..."] "..a/.b./..." := ⟨by decide, by decide, by decide⟩
    obtain ⟨hasked, hpath, -⟩ := hexact _ _ hspells
    obtain ⟨path, hasks⟩ := hasked.mpr (by decide)
    obtain ⟨hbelow, -⟩ := hpath path hasks
    rw [hroot] at hbelow
    exact ⟨path, hasks, hbelow⟩
  · have hspells : Spells ["..a", "", ".b.", "..."] "..a//.b./..." :=
      ⟨by decide, by decide, by decide⟩
    obtain ⟨hasked, -⟩ := hexact _ _ hspells
    rw [hasked]
    decide

end ClassPath

-- ---------------------------------------------------------------------------
-- Trees of files
-- ---------------------------------------------------------------------------

namespace FileTree

open ClassPath FilePath

variable {tree : FileTree} {place place' : List String} {parts : List String}

theorem walk_append (tree : FileTree) (place front behind : List String) :
    tree.walk place (front ++ behind) =
      (tree.walk place front).bind fun middle => tree.walk middle behind := by
  induction front generalizing place with
  | nil => rfl
  | cons part front ih =>
    rw [List.cons_append, walk, walk]
    split
    · rfl
    · split
      · exact ih place
      · split
        · split
          · rfl
          · exact ih place.dropLast
        · exact ih (place ++ [part])

/-- Parts that lead downwards lead to where they say. -/
theorem walk_plain (h : ∀ part ∈ parts, Plain part) (hwalk : tree.walk place parts = some place') :
    place' = place ++ parts := by
  induction parts generalizing place with
  | nil => simpa [walk] using hwalk.symm
  | cons part parts ih =>
    obtain ⟨hpart, hparts⟩ := List.forall_mem_cons.mp h
    obtain ⟨hempty, hdot, hdots⟩ := hpart
    have hsome : ¬ (part = "" ∨ part = ".") := not_or.mpr ⟨hempty, hdot⟩
    rw [walk, if_neg hsome, if_neg hdots] at hwalk
    split at hwalk
    · exact nomatch hwalk
    · have hrest := ih hparts hwalk
      simpa using hrest

/-- **What is found lies below the root.** The content that a directory finds in a tree of files is
that of a file whose place is the one that the root leads to and behind it the parts of the name. -/
theorem content_below_root {root name : String} {found : Located}
    (h : (Entry.directory root).search tree.read name = some found) :
    ∃ place, tree.walk [] (above root) = some place ∧
      tree.content? (place ++ (segments name).modifyLast (· ++ ".class")) = some found.bytes := by
  by_cases hrelative : isRelativeName name = true
  · rw [search_of_relative hrelative] at h
    obtain ⟨bytes, hread, rfl⟩ := Option.map_eq_some_iff.mp h
    unfold read at hread
    split at hread
    · exact nomatch hread
    · rw [segments_classFilePath, walk_append] at hread
      cases hroot : tree.walk [] (above root) with
      | none =>
        rw [hroot] at hread
        exact nomatch hread
      | some place =>
        rw [hroot, Option.bind_some] at hread
        split at hread
        · rename_i below hbelow
          -- plain parts only lead downwards, so the walk ends below the root it passed
          have hplain := plain_of_mem_modifyLast (isRelativeName_iff.mp hrelative).1
          obtain rfl := walk_plain hplain hbelow
          exact ⟨place, rfl, hread⟩
        · exact nomatch hread
  · rw [search_of_not_relative hrelative] at h
    exact nomatch h

end FileTree

end ClassHost
