import ShardIndex.Config
import ShardIndex.Proofs.Opening

/-!
# Where the file of an index is

A file that lies beside a database has a name with one of a few endings.  The path of an index
ends differently, and unless it is read as a URI it leads to a file whose name is the last one of
the path; so that file lies beside no other (`not_isBeside_of_openDatabase`).
-/

namespace ShardIndex.Disk

lemma pieces_of_notMem {α : Type} [DecidableEq α] {separator : α} {l : List α}
    (h : separator ∉ l) : Text.pieces separator l = [l] := by
  induction l with
  | nil => rfl
  | cons x rest ih =>
    rw [List.mem_cons, not_or] at h
    rw [Text.pieces, if_neg (Ne.symm h.1), ih h.2]

/-- The last piece of a text takes what is added to the text. -/
lemma exists_pieces_append {α : Type} [DecidableEq α] {separator : α} {added : List α}
    (h : separator ∉ added) (l : List α) :
    ∃ before last, Text.pieces separator l = before ++ [last] ∧
      Text.pieces separator (l ++ added) = before ++ [last ++ added] := by
  induction l with
  | nil => exact ⟨[], [], rfl, pieces_of_notMem h⟩
  | cons x l ih =>
    obtain ⟨before, last, hpieces, hadded⟩ := ih
    rw [List.cons_append, Text.pieces, Text.pieces, hpieces, hadded]
    split
    · exact ⟨[] :: before, last, rfl, rfl⟩
    · cases before with
      | nil => exact ⟨[], x :: last, rfl, rfl⟩
      | cons piece others => exact ⟨(x :: piece) :: others, last, rfl, rfl⟩

lemma exists_names_append {added : List Char} (hadded : added ≠ []) (h : '/' ∉ added) (p : Path)
    {q : Path} (hq : q.toList = p.toList ++ added) :
    ∃ before last, Path.names q = before ++ [String.ofList (last ++ added)] := by
  obtain ⟨before, last, -, hpieces⟩ := exists_pieces_append h p.toList
  have hne : (last ++ added).isEmpty = false := by
    rw [List.isEmpty_eq_false_iff]
    exact List.append_ne_nil_of_right_ne_nil _ hadded
  refine ⟨(before.filter fun name => !name.isEmpty).map String.ofList, last, ?_⟩
  rw [Path.names, hq, hpieces, List.filter_append, List.map_append]
  simp [hne]

lemma follow_concat {d : Disk} {name : String} (hdot : name ≠ ".") (hdots : name ≠ "..")
    {before : List String} {a b : Address} (h : d.follow a (before ++ [name]) = some b) :
    ∃ parent, b = parent ++ [name] := by
  induction before generalizing a with
  | nil =>
    rw [List.nil_append, follow, if_neg hdot, if_neg hdots] at h
    dsimp only at h
    split at h
    · exact ⟨a, (Option.some.inj h).symm⟩
    · cases h
  | cons first rest ih =>
    rw [List.cons_append, follow] at h
    split at h
    · exact ih h
    · split at h
      · exact ih h
      · dsimp only at h
        split at h
        · exact ih h
        · cases h

/-- Whether an address is one where something is looked for beside a database. -/
def IsNear (a : Address) : Prop := ∃ b, ∃ ending ∈ neighbours, a = beside b ending

lemma IsBeside.isNear {a : Address} : IsBeside a → IsNear a := by
  rintro ⟨b, ending, hending, ha⟩
  exact ⟨b, ending, List.mem_append_left _ hending, ha⟩

/-- A name with the ending of a database is not looked for beside another one. -/
lemma not_isNear_of_ends {parent : Address} {name : List Char} :
    ¬ IsNear (parent ++ [String.ofList (name ++ ".db".toList)]) := by
  rintro ⟨b, ending, hending, heq⟩
  rw [beside] at heq
  obtain ⟨-, hname⟩ := List.append_inj' heq rfl
  have hlast := congrArg (fun s => s.toList.getLast?) (List.singleton_inj.1 hname)
  simp only [besideName, String.toList_append, String.toList_ofList] at hlast
  simp only [neighbours, companions, List.cons_append, List.nil_append, List.mem_cons,
    List.not_mem_nil, or_false] at hending
  -- the last letters already differ
  rcases hending with rfl | rfl | rfl | rfl <;> simp [List.getLast?_append] at hlast

lemma exists_indexPath_eq (storage : Config.Storage) (home : Option Path) (shard : Shard) :
    ∃ p, storage.indexPath home shard = p ++ ".db" := by
  unfold Config.Storage.indexPath Config.Storage.indexName
  generalize Path.join (storage.dataPath home) "index" = base
  rw [Path.join]
  split
  · exact ⟨_, rfl⟩
  · split
    · exact ⟨base ++ (shard.dataset ++ "-" ++ toString shard.number), by simp [String.append_assoc]⟩
    · exact ⟨base ++ "/" ++ (shard.dataset ++ "-" ++ toString shard.number), by
        simp [String.append_assoc]⟩

/-- A path with the ending of a database is that of the file itself, unless it is read as a URI. -/
lemma ofPath?_of_ends {p : Path} (huri : (p ++ ".db").startsWith "file:" = false)
    {locator : Locator} (h : Locator.ofPath? (p ++ ".db") = some locator) :
    locator = .file (p ++ ".db") {} := by
  have hlist : (p ++ ".db").toList = p.toList ++ ".db".toList := String.toList_append
  have hempty : p ++ ".db" ≠ "" := fun heq => by
    rw [heq] at hlist
    cases (List.append_eq_nil_iff.1 hlist.symm).2
  have hmemory : p ++ ".db" ≠ ":memory:" := fun heq => by
    rw [heq] at hlist
    have hlast := congrArg List.getLast? hlist
    simp at hlast
  cases hnull : Path.hasNull (p ++ ".db") with
  | true =>
    rw [Locator.ofPath?, if_pos hnull] at h
    cases h
  | false =>
    rw [Locator.ofPath?_eq_file hnull huri hempty hmemory] at h
    exact (Option.some.inj h).symm

/-- A database whose path has the ending of one, and is not read as a URI, is in the file of the
path. -/
lemma fileOf?_of_openDatabase {d : Disk} {p : Path} {part : Part} {o : Opened}
    (huri : (p ++ ".db").startsWith "file:" = false)
    (h : (d.openDatabase (p ++ ".db") part).1 = .ok o) :
    ∃ a, (d.makeParent (p ++ ".db")).2.fileOf? (p ++ ".db") = some a ∧ o.address = some a := by
  unfold openDatabase at h
  split at h
  · cases h
  · rename_i d₁ hd₁
    rw [hd₁]
    split at h
    · cases h
    · rename_i hlocator
      cases ofPath?_of_ends huri hlocator
    · rename_i file access hlocator
      cases ofPath?_of_ends huri hlocator
      split at h
      · cases h
      · rename_i a ha
        have isOf := (meets_openFile (a := a) _ part d₁ rfl).2 o h
        exact ⟨a, ha, isOf.address⟩

/-- An index that is not named by a URI is in a file, and not in one that may lie beside
another. -/
theorem not_isBeside_of_openDatabase {d : Disk} {storage : Config.Storage} {home : Option Path}
    {shard : Shard} {o : Opened}
    (huri : (storage.indexPath home shard).startsWith "file:" = false)
    (h : (d.openDatabase (storage.indexPath home shard) .index).1 = .ok o) :
    ∃ a, o.address = some a ∧ ¬ IsBeside a := by
  obtain ⟨p, hp⟩ := exists_indexPath_eq storage home shard
  rw [hp] at huri h
  obtain ⟨a, ha, haddress⟩ := fileOf?_of_openDatabase huri h
  refine ⟨a, haddress, ?_⟩
  obtain ⟨hfollow, -⟩ := Option.filter_eq_some_iff.1 ha
  obtain ⟨before, last, hnames⟩ :=
    exists_names_append (by decide) (by decide) p (String.toList_append (s := p) (t := ".db"))
  rw [hnames] at hfollow
  have hdot : String.ofList (last ++ ".db".toList) ≠ "." := fun heq => by
    have hlast := congrArg (fun s => s.toList.getLast?) heq
    simp [List.getLast?_append] at hlast
  have hdots : String.ofList (last ++ ".db".toList) ≠ ".." := fun heq => by
    have hlast := congrArg (fun s => s.toList.getLast?) heq
    simp [List.getLast?_append] at hlast
  obtain ⟨parent, rfl⟩ := follow_concat hdot hdots hfollow
  exact mt IsBeside.isNear not_isNear_of_ends

end ShardIndex.Disk
