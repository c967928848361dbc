import ShardIndex.Command.Run
import ShardIndex.Proofs.Opened
import ShardIndex.Proofs.Paging

/-!
# What loading a file stores

The lines of a file that are not blank are read one by one, and stored in batches.  A line that
cannot be read is met at once, and a record with a reversed window only when its batch is stored;
either way the batch it belongs to is lost as a whole, and everything after it.  So the number of
records that are stored depends on nothing but the first bad line and the size of a batch
(`Ingest.kept`), which is shown for what is read after any batch that is not full yet
(`Ingest.loaded_loadFrom`).

What a shard has is a table by key (`PagedStore.contents`), and storing records writes them over it.
The main result is `Command.stored_of_loadFile`.
-/

namespace ShardIndex

/-! ## What a shard has -/

/-- Rows of other keys do not matter for what a list answers. -/
lemma Table.lookup_filter_ne {α : Type} {k q : Key} (h : q ≠ k) (l : List (Key × α)) :
    (l.filter fun row => row.1 ≠ k).lookup q = l.lookup q := by
  induction l with
  | nil => rfl
  | cons row rest ih =>
    by_cases hrow : row.1 = k
    · rw [List.filter_cons_of_neg (by simpa using hrow), ih, List.lookup_cons, hrow,
        beq_eq_false_iff_ne.2 h]
    · rw [List.filter_cons_of_pos (by simpa using hrow), List.lookup_cons, List.lookup_cons, ih]

namespace PagedStore

/-- Put records into the rows of a shard, one after another. -/
def putAll (t : PagedStore) (shard : Shard) (items : List (Record × Int)) : PagedStore :=
  items.foldl (fun t item => t.put ⟨shard, item.1, item.2⟩) t

/-- What a shard has for each key: the record, with the hour of its update. -/
def contents (t : PagedStore) (shard : Shard) : Table (Record × Int) :=
  .ofList ((t.ofShard shard none).map fun row =>
    (row.filed.record.key, row.filed.record, row.filed.hour))

variable {t : PagedStore} {shard other : Shard} {items : List (Record × Int)}

lemma putAll_append (t : PagedStore) (shard : Shard) (items items' : List (Record × Int)) :
    t.putAll shard (items ++ items') = (t.putAll shard items).putAll shard items' :=
  List.foldl_append

lemma ofShard_put_self (t : PagedStore) (f : Filed) :
    (t.put f).ofShard f.shard none =
      ((t.ofShard f.shard none).filter fun row => row.filed.record.key ≠ f.record.key) ++
        [⟨t.lastNumber + 1, f⟩] := by
  rw [put, ofShard, List.filter_append, ofShard, List.filter_filter, List.filter_filter]
  congr 1
  · refine List.filter_congr fun row _ => ?_
    by_cases hshard : row.filed.shard = f.shard <;> simp [hshard]
  · simp

/-- A row that is put is not seen from another shard. -/
lemma ofShard_put_of_ne {f : Filed} (h : other ≠ f.shard) (t : PagedStore) (hour : Option Int) :
    (t.put f).ofShard other hour = t.ofShard other hour := by
  rw [put, ofShard, List.filter_append, List.filter_filter, ofShard]
  have unseen : [(⟨t.lastNumber + 1, f⟩ : StoredRow)].filter (fun row =>
      row.filed.shard = other ∧ (hour = none ∨ hour = some row.filed.hour)) = [] := by
    simp [Ne.symm h]
  rw [unseen, List.append_nil]
  refine List.filter_congr fun row _ => ?_
  by_cases hshard : row.filed.shard = other <;> simp [hshard, h]

lemma ofShard_putAll_of_ne (h : other ≠ shard) (t : PagedStore) (items : List (Record × Int))
    (hour : Option Int) : (t.putAll shard items).ofShard other hour = t.ofShard other hour := by
  induction items generalizing t with
  | nil => rfl
  | cons item rest ih => exact (ih _).trans (ofShard_put_of_ne (f := ⟨shard, item.1, item.2⟩) h t _)

lemma contents_put (t : PagedStore) (f : Filed) :
    (t.put f).contents f.shard = (t.contents f.shard).insert f.record.key (f.record, f.hour) := by
  refine Table.ext_get? fun key => ?_
  rw [contents, ofShard_put_self, List.map_append, Table.get?_insert, contents, Table.get?_ofList,
    Table.get?_ofList, List.reverse_append, List.lookup_append]
  by_cases hkey : key = f.record.key
  · simp [hkey]
  · have others := Table.lookup_filter_ne hkey ((t.ofShard f.shard none).map fun row =>
      (row.filed.record.key, row.filed.record, row.filed.hour)).reverse
    rw [List.filter_reverse, List.filter_map] at others
    rw [if_neg hkey, ← others]
    simp [List.lookup_cons, beq_eq_false_iff_ne.2 hkey, Function.comp_def]

/-- Records that are put are written over what the shard has, the last one of a key staying. -/
lemma contents_putAll (t : PagedStore) (shard : Shard) (items : List (Record × Int)) :
    (t.putAll shard items).contents shard =
      (t.contents shard).insertAll (items.map fun item => (item.1.key, item)) := by
  induction items generalizing t with
  | nil => rfl
  | cons item rest ih =>
    have first := contents_put t ⟨shard, item.1, item.2⟩
    exact (ih _).trans (congrArg (fun u => Table.insertAll u _) first)

end PagedStore

/-! ## Good and bad readings -/

namespace Command.Ingest

/-- What a line counts for: a blank one for nothing, one that cannot be read for a line without
record, and any other one for a line with its record. -/
def reading? : Except Problem (Option (Record × Int)) → Option (Option (Record × Int))
  | .error _ => some none
  | .ok none => none
  | .ok (some item) => some (some item)

/-- What the lines of a list hold that are not blank: a record with the hour of its update, or none
if a line cannot be read. -/
def readingsOf (lines : List Bytes) : List (Option (Record × Int)) :=
  lines.filterMap fun line => reading? (readLine 0 line)

/-- What the lines of a file hold that are not blank. -/
def readings (content : Bytes) : List (Option (Record × Int)) := readingsOf (lines content)

/-- Whether a line has a record, with its window in order. -/
def isGood (reading : Option (Record × Int)) : Bool :=
  reading.any fun item => item.1.startTime ≤ item.1.endTime

/-- The place of the first line that is not good, the number of all lines if each is. -/
def firstBad (rs : List (Option (Record × Int))) : Nat := rs.findIdx fun r => !isGood r

/-- How many lines are stored in batches of some size: all if every line is good, and else those of
the batches that are full before the first bad line. -/
def keptLines (size : Nat) (rs : List (Option (Record × Int))) : Nat :=
  if firstBad rs = rs.length then rs.length else size * (firstBad rs / size)

/-- The records of these lines. -/
def kept (size : Nat) (rs : List (Option (Record × Int))) : List (Record × Int) :=
  (rs.take (keptLines size rs)).filterMap id

variable {size number count : Nat} {shard : Shard} {t : PagedStore} {line : Bytes}
  {rest : List Bytes} {batch : List (Record × Int)} {rs : List (Option (Record × Int))}

lemma firstBad_eq_length_iff : firstBad rs = rs.length ↔ ∀ r ∈ rs, isGood r = true := by
  simp [firstBad, List.findIdx_eq_length]

lemma forall_isGood_map_some :
    (∀ r ∈ batch.map some, isGood r = true) ↔ Batch.InOrder ⟨shard, batch⟩ := by
  rw [List.forall_mem_map]
  exact forall₂_congr fun item _ => decide_eq_true_iff

lemma filterMap_map_some (batch : List (Record × Int)) : (batch.map some).filterMap id = batch := by
  simp [List.filterMap_map]

/-- All lines before the first bad one are good. -/
lemma isGood_of_mem_take {n : Nat} (hn : n ≤ firstBad rs) {r : Option (Record × Int)}
    (hr : r ∈ rs.take n) : isGood r = true := by
  obtain ⟨j, hj, rfl⟩ := List.mem_take_iff_getElem.1 hr
  have hlt : j < firstBad rs := (lt_min_iff.1 hj).1.trans_le hn
  simpa using List.not_of_lt_findIdx hlt

lemma keptLines_le_firstBad (size : Nat) (rs : List (Option (Record × Int))) :
    keptLines size rs ≤ firstBad rs := by
  rw [keptLines]
  split
  · rename_i hall
    exact hall.ge
  · exact Nat.mul_div_le _ _

lemma map_some_filterMap (h : ∀ r ∈ rs, isGood r = true) : (rs.filterMap id).map some = rs := by
  induction rs with
  | nil => rfl
  | cons r rest ih =>
    obtain ⟨hr, hrest⟩ := List.forall_mem_cons.1 h
    cases r with
    | none => cases hr
    | some item => exact congrArg (some item :: ·) (ih hrest)

/-- Each line that is stored has its record. -/
lemma map_some_kept (size : Nat) (rs : List (Option (Record × Int))) :
    (kept size rs).map some = rs.take (keptLines size rs) :=
  map_some_filterMap fun _ hr => isGood_of_mem_take (keptLines_le_firstBad size rs) hr

/-- If all lines are good, their records are stored. -/
lemma kept_of_forall (h : ∀ r ∈ rs, isGood r = true) (size : Nat) :
    kept size rs = rs.filterMap id := by
  rw [kept, keptLines, if_pos (firstBad_eq_length_iff.2 h), List.take_length]

/-- A bad line in the first batch keeps everything from being stored. -/
lemma kept_of_bad {l : List (Option (Record × Int))} (h : ¬ ∀ r ∈ l, isGood r = true)
    (hlength : l.length ≤ size) (rs : List (Option (Record × Int))) : kept size (l ++ rs) = [] := by
  have early : firstBad l < l.length :=
    lt_of_le_of_ne List.findIdx_le_length (mt firstBad_eq_length_iff.1 h)
  have first : firstBad (l ++ rs) = firstBad l := by
    rw [firstBad, List.findIdx_append]
    exact if_pos early
  have hne : firstBad l ≠ (l ++ rs).length := by
    rw [List.length_append]
    omega
  rw [kept, keptLines, first, if_neg hne, Nat.div_eq_of_lt (early.trans_le hlength), Nat.mul_zero]
  rfl

/-- A full batch that is good is stored, and then what is stored of the others. -/
lemma kept_append (hgood : Batch.InOrder ⟨shard, batch⟩) (hlength : batch.length = size)
    (hsize : 0 < size) (rs : List (Option (Record × Int))) :
    kept size (batch.map some ++ rs) = batch ++ kept size rs := by
  have length : (batch.map some).length = size := (List.length_map _).trans hlength
  have first : firstBad (batch.map some ++ rs) = size + firstBad rs := by
    have whole := firstBad_eq_length_iff.2 (forall_isGood_map_some.2 hgood)
    rw [firstBad] at whole
    rw [firstBad, List.findIdx_append, whole, if_neg (Nat.lt_irrefl _), length, Nat.add_comm,
      firstBad]
  have count : keptLines size (batch.map some ++ rs) =
      (batch.map some).length + keptLines size rs := by
    rw [keptLines, keptLines, first, List.length_append, length, Nat.add_div_left _ hsize,
      Nat.mul_succ]
    by_cases h : firstBad rs = rs.length
    · rw [if_pos h, if_pos (congrArg _ h)]
    · rw [if_neg h, if_neg (by omega), Nat.add_comm]
  rw [kept, count, List.take_length_add_append, List.filterMap_append, filterMap_map_some, kept]

/-! ## Batch by batch -/

/-- A batch is stored as a whole, if all its windows are in order. -/
lemma store_of_inOrder (h : Batch.InOrder ⟨shard, batch⟩) (count : Nat) (t : PagedStore) :
    store ⟨shard, false⟩ batch count t = (.ok (count + batch.length), t.putAll shard batch) := by
  have written : t.write shard batch = .ok (t.putAll shard batch) := PagedStore.write_of_inOrder h t
  rw [store, written]
  rfl

lemma store_of_not_inOrder (h : ¬ Batch.InOrder ⟨shard, batch⟩) (isSealed : Bool) (count : Nat)
    (t : PagedStore) : ∃ p, store ⟨shard, isSealed⟩ batch count t = (.error p, t) := by
  obtain ⟨e, he⟩ := PagedStore.write_of_not_inOrder h t
  have refused : t.write shard batch = .error e := he
  exact ⟨.failure e, by rw [store, refused]⟩

/-- A store that may only be read takes no batch. -/
lemma store_of_isSealed (shard : Shard) (batch : List (Record × Int)) (count : Nat)
    (t : PagedStore) : ∃ p, store ⟨shard, true⟩ batch count t = (.error p, t) := by
  cases hwrite : t.write shard batch with
  | error e => exact ⟨.failure e, by rw [store, hwrite]⟩
  | ok written =>
    refine ⟨.failure .databaseSealed, ?_⟩
    rw [store, hwrite]
    rfl

/-- What has become of some readings, in batches of some size: those that count are stored, and they
are counted if all are good. -/
structure Loaded (size : Nat) (shard : Shard) (rs : List (Option (Record × Int))) (count : Nat)
    (t : PagedStore) (outcome : Except Problem Nat × PagedStore) : Prop where
  stored : outcome.2 = t.putAll shard (kept size rs)
  counted : (∀ r ∈ rs, isGood r = true) → outcome.1 = .ok (count + rs.length)
  failed : (¬ ∀ r ∈ rs, isGood r = true) → ∃ p, outcome.1 = .error p

namespace Loaded

/-- Nothing is stored where a bad line comes in the first batch. -/
lemma of_bad {l : List (Option (Record × Int))} (h : ¬ ∀ r ∈ l, isGood r = true)
    (hlength : l.length ≤ size) (p : Problem) :
    Loaded size shard (l ++ rs) count t (.error p, t) where
  stored := by
    rw [kept_of_bad h hlength]
    rfl
  counted hall := absurd (List.forall_mem_append.1 hall).1 h
  failed _ := ⟨p, rfl⟩

/-- A batch that is not full and comes last is stored if it is good. -/
lemma store (hlength : batch.length < size) :
    Loaded size shard (batch.map some) count t (store ⟨shard, false⟩ batch count t) := by
  by_cases h : Batch.InOrder ⟨shard, batch⟩
  · have good := forall_isGood_map_some.2 h
    rw [store_of_inOrder h]
    refine ⟨?_, fun _ => ?_, fun hbad => absurd good hbad⟩
    · rw [kept_of_forall good, filterMap_map_some]
    · rw [List.length_map]
  · obtain ⟨p, hp⟩ := store_of_not_inOrder h false count t
    rw [hp, ← List.append_nil (batch.map some)]
    exact of_bad (mt forall_isGood_map_some.1 h) ((List.length_map _).trans_le hlength.le) p

/-- A full batch that is good is stored before the others. -/
lemma append {outcome : Except Problem Nat × PagedStore}
    (h : Loaded size shard rs (count + batch.length) (t.putAll shard batch) outcome)
    (hgood : Batch.InOrder ⟨shard, batch⟩) (hlength : batch.length = size) (hsize : 0 < size) :
    Loaded size shard (batch.map some ++ rs) count t outcome := by
  have all : (∀ r ∈ batch.map some ++ rs, isGood r = true) ↔ ∀ r ∈ rs, isGood r = true := by
    rw [List.forall_mem_append]
    exact and_iff_right (forall_isGood_map_some.2 hgood)
  refine ⟨?_, fun hall => ?_, fun hbad => h.failed (mt all.2 hbad)⟩
  · rw [h.stored, kept_append hgood hlength hsize, PagedStore.putAll_append]
  · rw [h.counted (all.1 hall), List.length_append, List.length_map, Nat.add_assoc]

end Loaded

/-- The number of a line matters for the report of a problem alone. -/
lemma reading?_readLine (number : Nat) (line : Bytes) :
    reading? (readLine number line) = reading? (readLine 0 line) := by
  unfold readLine
  split
  · rfl
  · split
    · rfl
    · split
      · rfl
      · split <;> rfl

lemma readingsOf_cons (number : Nat) (line : Bytes) (rest : List Bytes) :
    readingsOf (line :: rest) = (reading? (readLine number line)).toList ++ readingsOf rest := by
  rw [reading?_readLine, readingsOf, List.filterMap_cons]
  cases reading? (readLine 0 line) <;> rfl

/-- What is read after a batch that is not full yet is stored as if the batch were read again. -/
lemma loaded_loadFrom (hsize : 0 < size) (batch : List (Record × Int))
    (hlength : batch.length < size) (number count : Nat) (t : PagedStore) (lines : List Bytes) :
    Loaded size shard (batch.map some ++ readingsOf lines) count t
      (loadFrom size ⟨shard, false⟩ number batch count t lines) := by
  induction lines generalizing number batch count t with
  | nil =>
    rw [loadFrom, readingsOf, List.filterMap_nil, List.append_nil]
    split
    · rename_i hempty
      rw [List.isEmpty_iff.1 hempty]
      exact ⟨rfl, fun _ => rfl, fun hbad => absurd (List.forall_mem_nil _) hbad⟩
    · exact .store hlength
  | cons line rest ih =>
    rw [loadFrom, readingsOf_cons number]
    cases hread : readLine number line with
    | error p =>
      have regroup : batch.map some ++ ((reading? (.error p)).toList ++ readingsOf rest) =
          (batch.map some ++ [none]) ++ readingsOf rest := (List.append_assoc _ _ _).symm
      rw [regroup]
      refine .of_bad (fun hall => ?_) ?_ p
      · cases hall none (List.mem_append_right _ (List.mem_singleton_self _))
      · rw [List.length_append, List.length_map]
        exact hlength
    | ok o =>
      cases o with
      | none => exact ih batch hlength (number + 1) count t
      | some item =>
        have regroup : batch.map some ++ ((reading? (.ok (some item))).toList ++ readingsOf rest) =
            (batch ++ [item]).map some ++ readingsOf rest := by
          rw [← List.append_assoc, List.map_append]
          rfl
        rw [regroup]
        dsimp only
        split
        · rename_i hroom
          exact ih (batch ++ [item]) hroom (number + 1) count t
        · rename_i hfull
          have length : (batch ++ [item]).length = size := by
            rw [List.length_append, List.length_singleton] at hfull ⊢
            omega
          by_cases h : Batch.InOrder ⟨shard, batch ++ [item]⟩
          · rw [store_of_inOrder h]
            exact (ih [] hsize (number + 1) _ _).append h length hsize
          · obtain ⟨p, hp⟩ := store_of_not_inOrder h false count t
            rw [hp]
            exact .of_bad (mt forall_isGood_map_some.1 h) ((List.length_map _).trans_le length.le) p

/-- A store that may only be read stays as it is, and a file with any line that is not blank cannot
be loaded into it. -/
lemma loadFrom_of_isSealed (size : Nat) (shard : Shard) (number count : Nat)
    (batch : List (Record × Int)) (t : PagedStore) (lines : List Bytes) :
    (batch = [] → readingsOf lines = [] →
        loadFrom size ⟨shard, true⟩ number batch count t lines = (.ok count, t)) ∧
      (batch ≠ [] ∨ readingsOf lines ≠ [] →
        ∃ p, loadFrom size ⟨shard, true⟩ number batch count t lines = (.error p, t)) := by
  induction lines generalizing number batch with
  | nil =>
    rw [loadFrom]
    refine ⟨fun hempty _ => by rw [hempty]; rfl, fun hne => ?_⟩
    have hne : batch.isEmpty = false :=
      List.isEmpty_eq_false_iff.2 (hne.resolve_right (not_not.2 rfl))
    obtain ⟨p, hp⟩ := store_of_isSealed shard batch count t
    exact ⟨p, by simp [hne, hp]⟩
  | cons line rest ih =>
    rw [loadFrom, readingsOf_cons number]
    cases hread : readLine number line with
    | error p => exact ⟨fun _ hnone => absurd hnone (List.cons_ne_nil _ _), fun _ => ⟨p, rfl⟩⟩
    | ok o =>
      cases o with
      | none => exact ih (number + 1) batch
      | some item =>
        refine ⟨fun _ hnone => absurd hnone (List.cons_ne_nil _ _), fun _ => ?_⟩
        dsimp only
        split
        · exact (ih (number + 1) (batch ++ [item])).2 (Or.inl (List.concat_ne_nil _ _))
        · obtain ⟨p, hp⟩ := store_of_isSealed shard (batch ++ [item]) count t
          exact ⟨p, by rw [hp]⟩

end Command.Ingest

/-! ## The store on the disk -/

namespace Disk

variable {a : Address} {o : Opened}

/-- The rows that are saved are in the file. -/
lemma storeAt_saveStore (ha : o.address = some a) (hne : a ≠ []) (d : Disk) (t : PagedStore) :
    (d.saveStore o t).storeAt a = t := by
  have put : (d.put a (.database { d.databaseAt a with store := some t })).node? a =
      some (.database { d.databaseAt a with store := some t }) := by
    rw [node?_put _ _ _ hne, if_pos rfl]
  have saved : (d.saveStore o t).node? a =
      some (.database { d.databaseAt a with store := some t }) := by
    rw [saveStore, save, ha]
    dsimp only
    split
    · rw [node?_erase _ _ (beside_ne_nil _ _), if_neg (beside_ne_self a (by decide)).symm, put]
    · exact put
  rw [storeAt, databaseAt, saved]
  rfl

end Disk

namespace Command

open Ingest Disk

section

variable {k : Circumstances} {c : Config} {shard : Shard} {file : Path} {d d₁ : Disk}
  {opened : Opened}

lemma loadFile_of_error {p : Problem}
    (hopened : d.openDatabase (c.storage.storePath k.environment.home?) .store = (.ok opened, d₁))
    (hp : contentOf d₁ c.storage.pageSize file = .error p) :
    loadFile k c shard file d = (.error p, if p.isAbrupt then d₁.breakOff opened else d₁) := by
  unfold loadFile
  dsimp only
  rw [hopened]
  dsimp only
  rw [hp]

/-- To load a file that can be read is to load its content, to save the store, and to report. -/
lemma loadFile_of_content {content : Bytes}
    (hopened : d.openDatabase (c.storage.storePath k.environment.home?) .store = (.ok opened, d₁))
    (hcontent : contentOf d₁ c.storage.pageSize file = .ok content) :
    let outcome := load c.storage.pageSize ⟨shard, opened.isSealed⟩ content opened.store
    loadFile k c shard file d =
      (outcome.1.map fun n => .summary "ingest" shard n none, d₁.saveStore opened outcome.2) := by
  intro outcome
  unfold loadFile
  dsimp only
  rw [hopened]
  dsimp only
  rw [hcontent]
  dsimp only
  split
  · rename_i p hp
    rw [show outcome.1 = .error p from hp]
    rfl
  · rename_i n hn
    rw [show outcome.1 = .ok n from hn]
    rfl

end

/-- **What loading a file stores.**  A file is loaded into a shard of the column store that was
opened.  If it cannot be read at all, nothing more is done.  Otherwise let a line be bad if it is
not blank and cannot be read, or has a record with its window reversed.

If no line is bad, the report counts the lines that are not blank, and their records have been
written over what the shard had, one after another, whatever the size of a batch.  If a line is bad,
loading fails, and just the records of the batches that are full before the first bad line have been
written over what the shard had; the size of a batch is the page size, and at least one.  The other
shards have the rows that they had, under the same numbers.  What was there is what was in the file
of the store, and what is there then is in it.

A store that may only be read is left as it is, and takes no file that has a line. -/
theorem stored_of_loadFile (k : Circumstances) (c : Config) (shard : Shard) (file : Path)
    {d d₁ : Disk} {opened : Opened}
    (hopened : d.openDatabase (c.storage.storePath k.environment.home?) .store = (.ok opened, d₁)) :
    let result := loadFile k c shard file d
    (∀ p, contentOf d₁ c.storage.pageSize file = .error p →
      result.1 = .error p ∧ (p.isAbrupt = false → result.2 = d₁)) ∧
    ∀ content, contentOf d₁ c.storage.pageSize file = .ok content →
      let size := max c.storage.pageSize 1
      let rs := readings content
      let i := firstBad rs
      let n := if i = rs.length then rs.length else size * (i / size)
      let records := (rs.take n).filterMap id
      let t := opened.store.putAll shard records
      (opened.isSealed = false →
        result.2 = d₁.saveStore opened t ∧
        (∀ a, opened.address = some a → d.storeAt a = opened.store ∧ result.2.storeAt a = t) ∧
        (i = rs.length → result.1 = .ok (.summary "ingest" shard rs.length none)) ∧
        (i < rs.length → ∃ p, result.1 = .error p) ∧
        records.map some = rs.take n ∧
        t.contents shard =
          (opened.store.contents shard).insertAll (records.map fun item => (item.1.key, item)) ∧
        ∀ other ≠ shard, ∀ hour, t.ofShard other hour = opened.store.ofShard other hour) ∧
      (opened.isSealed = true →
        result.2 = d₁.saveStore opened opened.store ∧
        (rs = [] → result.1 = .ok (.summary "ingest" shard 0 none)) ∧
        (rs ≠ [] → ∃ p, result.1 = .error p)) := by
  intro result
  have hresult : result = loadFile k c shard file d := rfl
  clear_value result
  constructor
  · intro p hp
    rw [loadFile_of_error hopened hp] at hresult
    rw [hresult]
    refine ⟨rfl, fun habrupt => ?_⟩
    rw [habrupt]
    rfl
  · intro content hcontent size rs i n records t
    rw [loadFile_of_content hopened hcontent] at hresult
    have hsize : 0 < size := lt_max_of_lt_right Nat.one_pos
    refine ⟨fun hwritable => ?_, fun hsealed => ?_⟩
    · rw [hwritable] at hresult
      have loaded : Loaded size shard rs 0 opened.store
          (load c.storage.pageSize ⟨shard, false⟩ content opened.store) :=
        loaded_loadFrom hsize [] hsize 1 0 opened.store (lines content)
      have hstored : result.2 = d₁.saveStore opened t := by
        rw [hresult, loaded.stored]
        rfl
      refine ⟨hstored, fun a ha => ?_, fun hall => ?_, fun hbad => ?_, map_some_kept size rs,
        PagedStore.contents_putAll _ _ _, fun other hother hour =>
          PagedStore.ofShard_putAll_of_ne hother _ _ hour⟩
      · obtain ⟨hne, hprior⟩ := (store_of_openDatabase (congrArg Prod.fst hopened)).2 a ha
        rw [hstored]
        exact ⟨hprior.symm, storeAt_saveStore ha hne d₁ t⟩
      · rw [hresult, loaded.counted (firstBad_eq_length_iff.1 hall), Nat.zero_add]
        rfl
      · obtain ⟨p, hp⟩ := loaded.failed (mt firstBad_eq_length_iff.2 hbad.ne)
        exact ⟨p, by rw [hresult, hp]; rfl⟩
    · rw [hsealed] at hresult
      obtain ⟨hblank, hlines⟩ :=
        loadFrom_of_isSealed size shard 1 0 [] opened.store (lines content)
      by_cases hrs : rs = []
      · rw [load, hblank rfl hrs] at hresult
        rw [hresult]
        exact ⟨rfl, fun _ => rfl, fun hne => absurd hrs hne⟩
      · obtain ⟨p, hp⟩ := hlines (Or.inr hrs)
        rw [load, hp] at hresult
        rw [hresult]
        exact ⟨rfl, fun hnone => absurd hnone hrs, fun _ => ⟨p, rfl⟩⟩

/-- A file of two records, with a blank line between them.  The second one has a reversed window. -/
def lastReversed : Bytes :=
  Bytes.ofText ("\x7b\"key_hex\":\"aa\",\"start\":0,\"end\":6,\"hour\":0\x7d\n \n" ++
    "\x7b\"key_hex\":\"aa\",\"start\":9,\"end\":8,\"hour\":1\x7d")

/-- With a page size of nought, which counts as one, the first record is stored and stays. -/
theorem stored_of_loadFile_lastReversed :
    let k : Circumstances := { environment := {}, now := 0, processors := 1 }
    let c : Config := { storage := { dataDir := "data", pageSize := 0 } }
    let shard : Shard := ⟨"metrics", 0⟩
    let d := (({} : Disk).put ["in"] (.file lastReversed)).put ["data"] .directory
    let result := loadFile k c shard "in" d
    (∃ p, result.1 = .error p) ∧
      ((result.2.storeAt ["data", "columnstore.db"]).contents shard).rows =
        [([170], ⟨[170], 0, 6⟩, 0)] := by
  intro k c shard d result
  have opens : ((d.openDatabase (c.storage.storePath none) .store).1.toOption.any
      fun o => !o.isSealed && o.address = some ["data", "columnstore.db"] && o.store = {}) =
        true := by decide +kernel
  have read : contentOf (d.openDatabase (c.storage.storePath none) .store).2 0 "in" =
      .ok lastReversed := by decide +kernel
  have hreadings : readings lastReversed =
      [some (⟨[170], 0, 6⟩, 0), some (⟨[170], 9, 8⟩, 1)] := by decide +kernel
  rcases hopened : d.openDatabase (c.storage.storePath none) .store with ⟨_ | o, d₁⟩
  · rw [hopened] at opens
    cases opens
  · rw [hopened] at opens read
    have parts : (!o.isSealed && o.address = some ["data", "columnstore.db"] && o.store = {}) =
      true := opens
    simp only [Bool.and_eq_true, Bool.not_eq_true', decide_eq_true_eq] at parts
    obtain ⟨⟨hwritable, haddress⟩, hstore⟩ := parts
    obtain ⟨-, loaded⟩ := stored_of_loadFile k c shard "in" hopened
    obtain ⟨-, hsaved, -, hfailed, -, hcontents, -⟩ := (loaded lastReversed read).1 hwritable
    rw [hreadings] at hsaved hfailed hcontents
    refine ⟨hfailed (by decide), ?_⟩
    rw [(hsaved _ haddress).2, hcontents, hstore]
    decide +kernel

end Command

end ShardIndex
