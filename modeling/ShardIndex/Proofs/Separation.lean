import ShardIndex.Proofs.Place
import Std.Data.String.ToNat

/-!
# Where the indexes of different shards are

The path of an index is that of its dataset in the directory of the indexes, with the number of
the shard behind it.  So two shards share it if and only if their numbers are the same and their
datasets lead to one path (`indexPath_eq_iff`).  A relative name leads to a path of its own; an
absolute one drops the directory, and may lead anywhere.

The names of a path lead to a place on a disk.  A dataset is plain if each name in it but the last
leads one directory down (`Shard.IsPlain`).  The indexes of plain datasets are at different places
below the directory of the indexes (`place_indexPath_ne`), and the column store is at none of them.
-/

namespace ShardIndex

/-! ## Pieces -/

namespace Text

variable {α : Type} [DecidableEq α] {separator : α}

lemma pieces_eq_splitOn (l : List α) : pieces separator l = l.splitOn separator := by
  induction l with
  | nil => rfl
  | cons x rest ih =>
    rw [pieces, List.splitOn_cons_eq_if_modifyHead, ih]
    by_cases h : x = separator
    · rw [if_pos h, if_pos (beq_iff_eq.2 h)]
    · rw [if_neg h, if_neg fun heq => h (beq_iff_eq.1 heq)]
      obtain ⟨piece, others, hpieces⟩ := List.exists_cons_of_ne_nil
        (List.splitOn_ne_nil separator rest)
      rw [hpieces, List.modifyHead_cons]

/-- What stands before a separator and what stands behind it are cut apart. -/
lemma pieces_append_cons (l l' : List α) :
    pieces separator (l ++ separator :: l') = pieces separator l ++ pieces separator l' := by
  simp only [pieces_eq_splitOn]
  exact List.splitOn_append_cons_self l l'

/-- A text can be put together from its pieces again. -/
lemma pieces_injective : Function.Injective (pieces separator) := by
  intro l l' h
  rw [pieces_eq_splitOn, pieces_eq_splitOn] at h
  have joined (l : List α) : [separator].intercalate (l.splitOn separator) = l :=
    List.intercalate_splitOn separator
  rw [← joined l, h, joined l']

end Text

/-! ## Paths behind others -/

namespace Path

variable {base rest p q : Path}

/-- What stands in front of a relative path that is put behind another one. -/
def stem (base : Path) : List Char :=
  if base.toList.isEmpty || base.toList.getLast? == some '/' then base.toList
  else base.toList ++ ['/']

lemma join_of_isAbsolute (h : isAbsolute rest = true) : join base rest = rest := by
  rw [join, if_pos h]

lemma toList_join (h : isAbsolute rest = false) :
    (join base rest).toList = stem base ++ rest.toList := by
  rw [join, h, if_neg Bool.false_ne_true, stem]
  split
  · exact String.toList_append
  · rw [String.toList_append, String.toList_append]
    rfl

/-- Different relative paths are different behind the same one. -/
lemma join_inj (hp : isAbsolute p = false) (hq : isAbsolute q = false)
    (h : join base p = join base q) : p = q := by
  have hlist := congrArg String.toList h
  rw [toList_join hp, toList_join hq] at hlist
  exact String.toList_inj.1 (List.append_cancel_left hlist)

/-- What stands in front of a relative path is nothing, or ends in a slash. -/
lemma stem_cases (base : Path) :
    base.toList = [] ∧ stem base = [] ∨
      ∃ l, stem base = l ++ ['/'] ∧ (base.toList = l ∧ l ≠ [] ∨ base.toList = l ++ ['/']) := by
  by_cases hempty : base.toList = []
  · refine Or.inl ⟨hempty, ?_⟩
    rw [stem, hempty]
    rfl
  · refine Or.inr ?_
    by_cases hlast : base.toList.getLast? = some '/'
    · obtain ⟨l, hl⟩ := List.getLast?_eq_some_iff.1 hlast
      refine ⟨l, ?_, Or.inr hl⟩
      rw [stem, if_pos (by rw [hlast]; simp), hl]
    · refine ⟨base.toList, ?_, Or.inl ⟨rfl, hempty⟩⟩
      rw [stem, if_neg (by simp [hempty, hlast])]

lemma isAbsolute_of_toList_eq {l : List Char} (hp : p.toList = q.toList ++ l)
    (hq : q.toList ≠ []) : isAbsolute p = isAbsolute q := by
  rw [isAbsolute, isAbsolute, hp, List.head?_append_of_ne_nil _ hq]

/-- A relative path begins where the one begins behind which it is put. -/
lemma isAbsolute_join (h : isAbsolute rest = false) :
    isAbsolute (join base rest) = isAbsolute base := by
  have hjoin : (join base rest).toList = stem base ++ rest.toList := toList_join h
  rcases stem_cases base with ⟨hempty, hstem⟩ | ⟨l, hstem, hbase | hbase⟩
  · rw [hstem, List.nil_append] at hjoin
    rw [String.toList_inj.1 hjoin, h, isAbsolute, hempty]
    rfl
  · rw [hstem, ← hbase.1, List.append_assoc] at hjoin
    exact isAbsolute_of_toList_eq hjoin (hbase.1 ▸ hbase.2)
  · rw [hstem, ← hbase] at hjoin
    refine isAbsolute_of_toList_eq hjoin ?_
    rw [hbase]
    exact List.concat_ne_nil _ _

/-- The names of a relative path follow those of the one behind which it is put. -/
lemma names_join (h : isAbsolute rest = false) :
    names (join base rest) = names base ++ names rest := by
  have hjoin : (join base rest).toList = stem base ++ rest.toList := toList_join h
  rcases stem_cases base with ⟨hempty, hstem⟩ | ⟨l, hstem, hbase⟩
  · rw [hstem, List.nil_append] at hjoin
    rw [names, names, names, hjoin, hempty]
    rfl
  · rw [hstem, List.append_assoc, List.singleton_append] at hjoin
    -- an empty piece behind a slash at the end is no name
    have hnames : names base = ((Text.pieces '/' l).filter fun name => !name.isEmpty).map
        String.ofList := by
      rcases hbase with ⟨hbase, -⟩ | hbase
      · rw [names, hbase]
      · rw [names, hbase, Text.pieces_append_cons, List.filter_append]
        simp [Text.pieces]
    rw [hnames, names, hjoin, Text.pieces_append_cons, List.filter_append, List.map_append]
    rfl

/-- Whether a path is read as a URI is decided by the one in front. -/
lemma startsWith_join (h : isAbsolute rest = false) (hbase : base.startsWith "file:" = false)
    (hrest : base.toList ≠ [] ∨ rest.startsWith "file:" = false) :
    (join base rest).startsWith "file:" = false := by
  rw [Bool.eq_false_iff, Ne, String.startsWith_string_iff] at hbase ⊢
  rw [toList_join h]
  intro huri
  rcases stem_cases base with ⟨hempty, hstem⟩ | ⟨l, hstem, hl⟩
  · rw [hstem, List.nil_append, ← String.startsWith_string_iff] at huri
    rcases hrest with hne | hrest
    · exact hne hempty
    · rw [hrest] at huri
      cases huri
  · have hbegins : l <+: base.toList := by
      rcases hl with ⟨hl, -⟩ | hl
      · exact hl ▸ List.prefix_rfl
      · exact hl ▸ List.prefix_append _ _
    -- there is no slash in what a URI begins with, so it ends before the one behind the base
    obtain ⟨more, hmore⟩ := huri
    rw [hstem, List.append_assoc, List.singleton_append] at hmore
    rcases List.append_eq_append_iff.1 hmore with ⟨between, hbetween, -⟩ | ⟨after, hafter, hslash⟩
    · exact hbase ((hbetween ▸ List.prefix_append _ _ : _ <+: l).trans hbegins)
    · cases after with
      | nil =>
        rw [List.append_nil] at hafter
        exact hbase (hafter ▸ hbegins)
      | cons c after =>
        have hc : c = '/' := (List.cons.inj hslash).1.symm
        have hmem : '/' ∈ "file:".toList := by
          rw [hafter, hc]
          exact List.mem_append_right _ List.mem_cons_self
        exact absurd hmem (by decide)

end Path

/-! ## The paths of indexes -/

namespace Config.Storage

variable {storage : Config.Storage} {home : Option Path} {s t : Shard}

/-- The directory of the indexes. -/
def indexDirectory (storage : Config.Storage) (home : Option Path) : Path :=
  Path.join (storage.dataPath home) "index"

/-- What stands in the name of an index behind that of the dataset. -/
def numberEnding (n : Nat) : String := "-" ++ toString n ++ ".db"

lemma toList_numberEnding (n : Nat) :
    (numberEnding n).toList = '-' :: (n.repr.toList ++ ".db".toList) := by
  rw [numberEnding, String.toList_append, String.toList_append]
  rfl

/-- The letters of a number and of the ending are no hyphens and no slashes. -/
lemma notMem_digits {c : Char} (hc : c.isDigit = false) (hdb : c ∉ ".db".toList) (n : Nat) :
    c ∉ n.repr.toList ++ ".db".toList := by
  intro h
  rcases List.mem_append.1 h with hdigit | hend
  · rw [Nat.repr, String.toList_ofList] at hdigit
    have := Nat.isDigit_of_mem_toDigits (by decide) (by decide) hdigit
    rw [hc] at this
    cases this
  · exact hdb hend

lemma append_numberEnding_inj {p q : String} {m n : Nat}
    (h : p ++ numberEnding m = q ++ numberEnding n) : p = q ∧ m = n := by
  have hlist := congrArg String.toList h
  rw [String.toList_append, String.toList_append, toList_numberEnding, toList_numberEnding]
    at hlist
  have digits (k : Nat) : Text.pieces '-' (k.repr.toList ++ ".db".toList) =
      [k.repr.toList ++ ".db".toList] :=
    Disk.pieces_of_notMem (notMem_digits (by decide) (by decide) k)
  -- the number stands behind the last hyphen
  have hpieces := congrArg (Text.pieces '-') hlist
  rw [Text.pieces_append_cons, Text.pieces_append_cons, digits m, digits n] at hpieces
  obtain ⟨hfront, hback⟩ := List.append_inj' hpieces rfl
  refine ⟨String.toList_inj.1 (Text.pieces_injective hfront), ?_⟩
  have hnumber := List.append_cancel_right (List.singleton_inj.1 hback)
  exact Nat.repr_inj.1 (String.toList_inj.1 hnumber)

lemma indexName_eq (s : Shard) : indexName s = s.dataset ++ numberEnding s.number := by
  rw [indexName, numberEnding, String.append_assoc, String.append_assoc, String.append_assoc]

lemma indexName_inj (h : indexName s = indexName t) : s = t := by
  rw [indexName_eq, indexName_eq] at h
  obtain ⟨hdataset, hnumber⟩ := append_numberEnding_inj h
  cases s
  cases t
  exact congrArg₂ Shard.mk hdataset hnumber

lemma isAbsolute_indexName (s : Shard) :
    Path.isAbsolute (indexName s) = Path.isAbsolute s.dataset := by
  have hlist : (indexName s).toList = s.dataset.toList ++ (numberEnding s.number).toList := by
    rw [indexName_eq, String.toList_append]
  by_cases hempty : s.dataset.toList = []
  · rw [Path.isAbsolute, Path.isAbsolute, hlist, hempty, List.nil_append, toList_numberEnding]
    rfl
  · exact Path.isAbsolute_of_toList_eq hlist hempty

/-- The path of an index is that of its dataset with the number behind it. -/
lemma indexPath_eq (storage : Config.Storage) (home : Option Path) (s : Shard) :
    storage.indexPath home s =
      Path.join (storage.indexDirectory home) s.dataset ++ numberEnding s.number := by
  rw [indexPath, indexDirectory]
  cases h : Path.isAbsolute s.dataset with
  | true =>
    rw [Path.join_of_isAbsolute h, Path.join_of_isAbsolute ((isAbsolute_indexName s).trans h),
      indexName_eq]
  | false =>
    rw [← String.toList_inj, Path.toList_join ((isAbsolute_indexName s).trans h),
      String.toList_append, Path.toList_join h, indexName_eq, String.toList_append,
      List.append_assoc]

/-- Two shards share the path of their indexes if and only if they have the same number and their
datasets lead to one path. -/
theorem indexPath_eq_iff :
    storage.indexPath home s = storage.indexPath home t ↔
      Path.join (storage.indexDirectory home) s.dataset =
          Path.join (storage.indexDirectory home) t.dataset ∧
        s.number = t.number := by
  rw [indexPath_eq, indexPath_eq]
  constructor
  · exact append_numberEnding_inj
  · rintro ⟨hdataset, hnumber⟩
    rw [hdataset, hnumber]

/-- Different shards with relative datasets have different paths. -/
lemma indexPath_ne (hst : s ≠ t) (hs : Path.isAbsolute s.dataset = false)
    (ht : Path.isAbsolute t.dataset = false) :
    storage.indexPath home s ≠ storage.indexPath home t := by
  intro h
  obtain ⟨hdataset, hnumber⟩ := indexPath_eq_iff.1 h
  refine hst ?_
  cases s
  cases t
  exact congrArg₂ Shard.mk (Path.join_inj hs ht hdataset) hnumber

/-- The path of the column store ends as that of a database. -/
lemma exists_storePath_eq (storage : Config.Storage) (home : Option Path) :
    ∃ p, storage.storePath home = p ++ ".db" := by
  refine ⟨Path.join (storage.dataPath home) "columnstore", ?_⟩
  rw [storePath, ← String.toList_inj, Path.toList_join (by decide), String.toList_append,
    Path.toList_join (by decide), List.append_assoc]
  rfl

/-- The column store is not named by a URI unless the data directory is. -/
lemma startsWith_storePath (huri : (storage.dataPath home).startsWith "file:" = false) :
    (storage.storePath home).startsWith "file:" = false :=
  Path.startsWith_join (by decide) huri (Or.inr (by decide +kernel))

/-- An index with a relative dataset is not named by a URI unless the data directory is. -/
lemma startsWith_indexPath (huri : (storage.dataPath home).startsWith "file:" = false)
    (hs : Path.isAbsolute s.dataset = false) :
    (storage.indexPath home s).startsWith "file:" = false := by
  have hne : (storage.indexDirectory home).toList ≠ [] := by
    rw [indexDirectory, Path.toList_join (by decide)]
    exact List.append_ne_nil_of_right_ne_nil _ (by decide)
  have hdirectory : (storage.indexDirectory home).startsWith "file:" = false :=
    Path.startsWith_join (by decide) huri (Or.inr (by decide +kernel))
  exact Path.startsWith_join ((isAbsolute_indexName s).trans hs) hdirectory (Or.inl hne)

end Config.Storage

/-! ## Places -/

namespace Disk

variable {d : Disk}

/-- The place to which the names of a path lead, whatever is there. -/
def place (d : Disk) (p : Path) : Address := (Path.names p).foldl child (d.origin p)

lemma eq_foldl_of_follow {a b : Address} {names : List String} (h : d.follow a names = some b) :
    b = names.foldl child a := by
  induction names generalizing a with
  | nil => exact (Option.some.inj h).symm
  | cons name rest ih =>
    rw [follow] at h
    rw [List.foldl_cons, child]
    split at h
    · rename_i hdot
      rw [if_pos hdot]
      exact ih h
    · rename_i hdot
      rw [if_neg hdot]
      split at h
      · rename_i hdots
        rw [if_pos hdots]
        exact ih h
      · rename_i hdots
        rw [if_neg hdots]
        dsimp only at h
        split at h
        · exact ih h
        · cases h

/-- The file of a database is at the place of its path. -/
lemma eq_place_of_fileOf? {p : Path} {a : Address} (h : d.fileOf? p = some a) : a = d.place p :=
  eq_foldl_of_follow (Option.filter_eq_some_iff.1 h).1

/-- The place of a path depends on nothing but the directory in which the disk is used. -/
lemma place_of_current {d' : Disk} (h : d'.current = d.current) (p : Path) :
    d'.place p = d.place p := by
  rw [place, place, origin, origin, h]

/-- The names of a relative path lead on from the place of the one behind which it is put. -/
lemma place_join {base rest : Path} (h : Path.isAbsolute rest = false) :
    d.place (Path.join base rest) = (Path.names rest).foldl child (d.place base) := by
  rw [place, Path.names_join h, List.foldl_append, place, origin, Path.isAbsolute_join h, origin]

/-- Whether a name leads into a directory, and not to itself or back. -/
def LeadsDown (name : String) : Prop := name ≠ "" ∧ name ≠ "." ∧ name ≠ ".."

instance (name : String) : Decidable (LeadsDown name) :=
  inferInstanceAs (Decidable (name ≠ "" ∧ name ≠ "." ∧ name ≠ ".."))

lemma foldl_child {names : List String} (h : ∀ name ∈ names, LeadsDown name) (a : Address) :
    names.foldl child a = a ++ names := by
  induction names generalizing a with
  | nil => exact (List.append_nil a).symm
  | cons name rest ih =>
    obtain ⟨hname, hrest⟩ := List.forall_mem_cons.1 h
    rw [List.foldl_cons, ih hrest, child, if_neg hname.2.1, if_neg hname.2.2, List.append_assoc]
    rfl

end Disk

/-! ## Plain datasets -/

/-- Whether the names of a dataset lead down; what the last one of them is does not matter, as the
name of the index goes on behind it. -/
def Shard.IsPlain (s : Shard) : Prop :=
  ∀ piece ∈ (Text.pieces '/' s.dataset.toList).dropLast, Disk.LeadsDown (String.ofList piece)

instance (s : Shard) : Decidable s.IsPlain :=
  inferInstanceAs (Decidable (∀ piece ∈ (Text.pieces '/' s.dataset.toList).dropLast,
    Disk.LeadsDown (String.ofList piece)))

namespace Shard.IsPlain

open Config.Storage

variable {s t : Shard}

lemma isRelative (h : s.IsPlain) : Path.isAbsolute s.dataset = false := by
  by_contra habsolute
  rw [Bool.not_eq_false, Path.isAbsolute, beq_iff_eq] at habsolute
  obtain ⟨rest, hrest⟩ := List.head?_eq_some_iff.1 habsolute
  refine (h [] ?_).1 rfl
  -- an empty piece would stand in front of the first slash
  rw [hrest, Text.pieces, if_pos rfl]
  have hne : Text.pieces '/' rest ≠ [] := by
    rw [Text.pieces_eq_splitOn]
    exact List.splitOn_ne_nil _ _
  rw [List.dropLast_cons_of_ne_nil hne]
  exact List.mem_cons_self

/-- The name of an index leads down on all its way. -/
lemma leadsDown (h : s.IsPlain) :
    ∀ piece ∈ Text.pieces '/' (indexName s).toList, Disk.LeadsDown (String.ofList piece) := by
  have slash : '/' ∉ (numberEnding s.number).toList := by
    rw [toList_numberEnding, List.mem_cons, not_or]
    exact ⟨by decide, notMem_digits (by decide) (by decide) _⟩
  obtain ⟨before, last, hpieces, hname⟩ := Disk.exists_pieces_append slash s.dataset.toList
  rw [indexName_eq, String.toList_append, hname]
  intro piece hpiece
  rcases List.mem_append.1 hpiece with hbefore | hlast
  · refine h piece ?_
    rw [hpieces, List.dropLast_concat]
    exact hbefore
  · -- there is a hyphen in the last name
    have hyphen : '-' ∈ piece := by
      rw [List.mem_singleton.1 hlast, toList_numberEnding]
      exact List.mem_append_right _ List.mem_cons_self
    have other {name : String} (hname : '-' ∉ name.toList) : String.ofList piece ≠ name := by
      rintro rfl
      rw [String.toList_ofList] at hname
      exact hname hyphen
    exact ⟨other (by decide), other (by decide), other (by decide)⟩

lemma names_indexName (h : s.IsPlain) :
    Path.names (indexName s) = (Text.pieces '/' (indexName s).toList).map String.ofList := by
  rw [Path.names, List.filter_eq_self.2]
  intro piece hpiece
  have hne : piece ≠ [] := fun heq => (h.leadsDown piece hpiece).1 (by rw [heq])
  rw [List.isEmpty_eq_false_iff.2 hne]
  rfl

/-- The index of a plain dataset is below the directory of the indexes, where its name says. -/
theorem place_indexPath (h : s.IsPlain) (storage : Config.Storage) (home : Option Path)
    (d : Disk) :
    d.place (storage.indexPath home s) =
      d.place (storage.indexDirectory home) ++ Path.names (indexName s) := by
  rw [indexPath, ← indexDirectory, Disk.place_join ((isAbsolute_indexName s).trans h.isRelative),
    Disk.foldl_child]
  intro name hname
  rw [h.names_indexName, List.mem_map] at hname
  obtain ⟨piece, hpiece, rfl⟩ := hname
  exact h.leadsDown piece hpiece

lemma names_ne_nil (h : s.IsPlain) : Path.names (indexName s) ≠ [] := by
  rw [h.names_indexName, Text.pieces_eq_splitOn, Ne, List.map_eq_nil_iff]
  exact List.splitOn_ne_nil _ _

lemma eq_of_names_eq (hs : s.IsPlain) (ht : t.IsPlain)
    (h : Path.names (indexName s) = Path.names (indexName t)) : s = t := by
  rw [hs.names_indexName, ht.names_indexName] at h
  have hpieces := List.map_injective_iff.2 (fun _ _ => String.ofList_injective) h
  exact indexName_inj (String.toList_inj.1 (Text.pieces_injective hpieces))

end Shard.IsPlain

/-! ## The places of indexes -/

namespace Disk

open Config.Storage

variable {storage : Config.Storage} {home : Option Path} {s t : Shard} (d : Disk)

/-- The indexes of different shards with plain datasets are at different places. -/
theorem place_indexPath_ne (hst : s ≠ t) (hs : s.IsPlain) (ht : t.IsPlain) :
    d.place (storage.indexPath home s) ≠ d.place (storage.indexPath home t) := by
  rw [hs.place_indexPath, ht.place_indexPath]
  exact fun h => hst (hs.eq_of_names_eq ht (List.append_cancel_left h))

lemma place_join_name (base : Path) {name : Path} (hname : Path.names name = [name])
    (hdown : LeadsDown name) (hrelative : Path.isAbsolute name = false) :
    d.place (Path.join base name) = d.place base ++ [name] := by
  rw [place_join hrelative, hname, foldl_child]
  exact List.forall_mem_singleton.2 hdown

/-- The column store is at the place of no index. -/
theorem place_storePath_ne (h : s.IsPlain) :
    d.place (storage.storePath home) ≠ d.place (storage.indexPath home s) := by
  rw [h.place_indexPath, storePath, indexDirectory,
    d.place_join_name _ (by decide +kernel) (by simp [LeadsDown]) (by decide),
    d.place_join_name _ (by decide +kernel) (by simp [LeadsDown]) (by decide), List.append_assoc]
  intro heq
  exact absurd (List.cons.inj (List.append_cancel_left heq)).1 (by decide)

/-- The index of a plain dataset is not where anything is looked for beside a database. -/
lemma not_isNear_place (h : s.IsPlain) : ¬ IsNear (d.place (storage.indexPath home s)) := by
  obtain ⟨before, last, hnames⟩ := exists_names_append (by decide) (by decide)
    (s.dataset ++ "-" ++ toString s.number)
    (String.toList_append (s := s.dataset ++ "-" ++ toString s.number) (t := ".db"))
  rw [h.place_indexPath, indexName, hnames, ← List.append_assoc]
  exact not_isNear_of_ends

end Disk

end ShardIndex
