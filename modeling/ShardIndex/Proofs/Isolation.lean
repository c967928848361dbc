import ShardIndex.Proofs.Alike
import ShardIndex.Proofs.History

/-!
# Commands on one shard and the index of another

A command opens the column store and the index of its shard, and looks at nothing else but the
file that it may be told to load.  So where neither of the two is at some place, the command
ignores a file that is there (`agree_run`).  For shards with plain datasets this is so of every
index but the one of the shard itself, and no command on one shard reads or writes the index of
another (`indexes_apart`).

The name of a dataset is put into the path of the index as it is.  An absolute one can lead to the
index of another shard, which then belongs to both (`index_shared_of_absolute`).
-/

namespace ShardIndex

open Disk

namespace Command

/-- The shard that a command works on. -/
def shard? : Command → Option Shard
  | .ingest shard _ => some shard
  | .rebuild shard => some shard
  | .rebuildLive shard _ _ => some shard
  | .refresh shard _ _ _ _ => some shard
  | .stats shard => some shard
  | .writeConfig _ => none

/-- Whether the databases of a shard are elsewhere than at some address, for disks that are used in
some directory. -/
structure Avoids (k : Circumstances) (c : Config) (s : Shard) (cur b : Address) : Prop where
  /-- Nothing is looked for there beside a database. -/
  near : ¬ IsNear b
  /-- The column store is not there. -/
  store : ∀ d : Disk, d.current = cur → ∀ file access,
    Locator.ofPath? (c.storage.storePath k.environment.home?) = some (.file file access) →
      d.place file ≠ b
  /-- The index is not there. -/
  index : ∀ d : Disk, d.current = cur → ∀ file access,
    Locator.ofPath? (c.storage.indexPath k.environment.home? s) = some (.file file access) →
      d.place file ≠ b

section Runs

variable {k : Circumstances} {c : Config} {s : Shard} {cur b : Address} {held : Held} {d d' : Disk}

lemma Avoids.address_of_store (avoids : Avoids k c s cur b) (hcurrent : d.current = cur)
    {o : Opened} (h : (d.openDatabase (c.storage.storePath k.environment.home?) .store).1 = .ok o)
    {a : Address} (ha : o.address = some a) : a ≠ b := by
  obtain ⟨file, access, hlocator, rfl⟩ := address_of_openDatabase h ha
  exact avoids.store d hcurrent file access hlocator

lemma Avoids.address_of_index (avoids : Avoids k c s cur b) (hcurrent : d.current = cur)
    {o : Opened}
    (h : (d.openDatabase (c.storage.indexPath k.environment.home? s) .index).1 = .ok o)
    {a : Address} (ha : o.address = some a) : a ≠ b := by
  obtain ⟨file, access, hlocator, rfl⟩ := address_of_openDatabase h ha
  exact avoids.index d hcurrent file access hlocator

/-- Opening a shard ignores a file elsewhere, and opens an index that is not there. -/
lemma agree_openShard (h : AlikeBut cur b held d d') (avoids : Avoids k c s cur b) :
    Agree cur b held (openShard k c s d) (openShard k c s d') ∧
      ∀ opened, (openShard k c s d).1 = .ok opened →
        ∀ a, opened.index.address = some a → a ≠ b := by
  obtain ⟨stored, d₁, d₁', hd, hd', hdisks⟩ :=
    (h.openDatabase avoids.near (avoids.store d h.current) .store).exists_eq
  unfold openShard
  dsimp only
  rw [hd, hd']
  cases stored with
  | error e => exact ⟨⟨rfl, hdisks⟩, fun o ho => by cases ho⟩
  | ok stored =>
    obtain ⟨indexed, d₂, d₂', hd₂, hd₂', hdisks₂⟩ :=
      (hdisks.openDatabase avoids.near (avoids.index d₁ hdisks.current) .index).exists_eq
    dsimp only
    rw [hd₂, hd₂']
    cases indexed with
    | error e => exact ⟨⟨rfl, hdisks₂⟩, fun o ho => by cases ho⟩
    | ok indexed =>
      refine ⟨⟨rfl, hdisks₂⟩, fun opened ho a ha => ?_⟩
      obtain rfl := Except.ok.inj ho
      exact avoids.address_of_index hdisks.current (congrArg Prod.fst hd₂) ha

lemma agree_fill (h : AlikeBut cur b held d d') (avoids : Avoids k c s cur b) (operation : String)
    (source : Shard) (schemas : Schema.Registry) (strategy : Bootstrap.Strategy) :
    Agree cur b held (fill k c operation s source schemas strategy d)
      (fill k c operation s source schemas strategy d') := by
  obtain ⟨hagree, elsewhere⟩ := agree_openShard h avoids
  obtain ⟨opened, d₁, d₁', hd, hd', hdisks⟩ := hagree.exists_eq
  unfold fill
  rw [hd, hd']
  cases opened with
  | error p => exact ⟨rfl, hdisks⟩
  | ok opened =>
    -- what is written depends on the databases of the shard alone
    have saved (rows : Snapshot) : AlikeBut cur b held (d₁.saveIndex opened.index rows)
        (d₁'.saveIndex opened.index rows) :=
      hdisks.save avoids.near (elsewhere opened (congrArg Prod.fst hd)) _ _
    dsimp only
    split
    · split
      · exact ⟨rfl, hdisks⟩
      · exact ⟨rfl, hdisks⟩
    · split
      · exact ⟨rfl, saved _⟩
      · exact ⟨rfl, saved _⟩

lemma agree_loadFile (h : AlikeBut cur b held d d') (avoids : Avoids k c s cur b) (file : Path) :
    Agree cur b held (loadFile k c s file d) (loadFile k c s file d') := by
  obtain ⟨-, hopened⟩ := openDatabase_spec d (c.storage.storePath k.environment.home?) .store
  obtain ⟨stored, d₁, d₁', hd, hd', hdisks⟩ :=
    (h.openDatabase avoids.near (avoids.store d h.current) .store).exists_eq
  unfold loadFile
  dsimp only
  rw [hd, hd']
  cases stored with
  | error e => exact ⟨rfl, hdisks⟩
  | ok stored =>
    have same : Ingest.contentOf d₁' c.storage.pageSize file =
        Ingest.contentOf d₁ c.storage.pageSize file := by
      rw [Ingest.contentOf, Ingest.contentOf, hdisks.readBytes_eq]
    have saved (rows : PagedStore) : AlikeBut cur b held (d₁.saveStore stored rows)
        (d₁'.saveStore stored rows) :=
      hdisks.save avoids.near
        (fun a => avoids.address_of_store h.current (congrArg Prod.fst hd)) _ _
    dsimp only
    rw [same]
    split
    · refine ⟨rfl, ?_⟩
      dsimp only
      split
      · exact hdisks.breakOff avoids.near (hopened stored (congrArg Prod.fst hd)).traces
      · exact hdisks
    · split
      · exact ⟨rfl, saved _⟩
      · exact ⟨rfl, saved _⟩

lemma agree_showStats (h : AlikeBut cur b held d d') (avoids : Avoids k c s cur b) :
    Agree cur b held (showStats k c s d) (showStats k c s d') := by
  obtain ⟨indexed, d₁, d₁', hd, hd', hdisks⟩ :=
    (h.openDatabase avoids.near (avoids.index d h.current) .index).exists_eq
  unfold showStats
  dsimp only
  rw [hd, hd']
  cases indexed with
  | error e => exact ⟨rfl, hdisks⟩
  | ok indexed => exact ⟨rfl, hdisks⟩

/-- A command on a shard ignores a file where no database of the shard is. -/
theorem agree_run (h : AlikeBut cur b held d d') (avoids : Avoids k c s cur b) {command : Command}
    (hshard : command.shard? = some s) :
    Agree cur b held (command.run k c d) (command.run k c d') := by
  cases command with
  | ingest shard file =>
    obtain rfl : shard = s := Option.some.inj hshard
    rw [Command.run, Command.run]
    exact agree_loadFile h avoids file
  | rebuild shard =>
    obtain rfl : shard = s := Option.some.inj hshard
    rw [Command.run, Command.run]
    exact agree_fill h avoids _ _ _ _
  | rebuildLive shard checkpoint parallelism =>
    obtain rfl : shard = s := Option.some.inj hshard
    rw [Command.run, Command.run]
    exact agree_fill h avoids _ _ _ _
  | refresh shard rawDataset firstHour lastHour parallelism =>
    obtain rfl : shard = s := Option.some.inj hshard
    rw [Command.run, Command.run]
    cases c.building.registry with
    | error e => exact ⟨rfl, h⟩
    | ok schemas => exact agree_fill h avoids _ _ _ _
  | stats shard =>
    obtain rfl : shard = s := Option.some.inj hshard
    rw [Command.run, Command.run]
    exact agree_showStats h avoids
  | writeConfig output => cases hshard

/-- A command on a shard leaves a file as it is where no database of the shard is, and makes none
there. -/
lemma node?_run (avoids : Avoids k c s d.current b) {command : Command}
    (hshard : command.shard? = some s) :
    (command.run k c d).2.node? b = d.node? b ∨
      ∀ n, d.node? b = some n ∨ (command.run k c d).2.node? b = some n → n = .directory := by
  obtain ⟨held, h⟩ := AlikeBut.exists_refl b d
  exact h.node?_eq_or (agree_run h avoids hshard).disks

end Runs

/-! ## Shards with plain datasets -/

variable (k : Circumstances) (c : Config) {s t : Shard}

/-- The databases of a shard are elsewhere than at the index of another one. -/
lemma avoids_of_isPlain (hst : s ≠ t) (hs : s.IsPlain) (ht : t.IsPlain)
    (huri : (c.storage.dataPath k.environment.home?).startsWith "file:" = false) (d : Disk) :
    Avoids k c s d.current (d.place (c.storage.indexPath k.environment.home? t)) where
  near := d.not_isNear_place ht
  store := by
    intro d' hcurrent file access hlocator
    have hstore := Config.Storage.startsWith_storePath huri
    obtain ⟨p, hp⟩ := Config.Storage.exists_storePath_eq c.storage k.environment.home?
    rw [hp] at hlocator hstore
    cases ofPath?_of_ends hstore hlocator
    rw [← hp, ← place_of_current hcurrent]
    exact d'.place_storePath_ne ht
  index := by
    intro d' hcurrent file access hlocator
    have hindex := Config.Storage.startsWith_indexPath huri hs.isRelative
    obtain ⟨p, hp⟩ := exists_indexPath_eq c.storage k.environment.home? s
    rw [hp] at hlocator hindex
    cases ofPath?_of_ends hindex hlocator
    rw [← hp, ← place_of_current hcurrent]
    exact d'.place_indexPath_ne hst hs ht

/-- An index that is opened is at the place of its path. -/
lemma address_of_index (hs : Path.isAbsolute s.dataset = false)
    (huri : (c.storage.dataPath k.environment.home?).startsWith "file:" = false) {d : Disk}
    {o : Opened}
    (h : (d.openDatabase (c.storage.indexPath k.environment.home? s) .index).1 = .ok o) :
    o.address = some (d.place (c.storage.indexPath k.environment.home? s)) := by
  have hindex := Config.Storage.startsWith_indexPath huri hs
  obtain ⟨p, hp⟩ := exists_indexPath_eq c.storage k.environment.home? s
  rw [hp] at h hindex ⊢
  obtain ⟨a, hfile, haddress⟩ := fileOf?_of_openDatabase hindex h
  rw [haddress, eq_place_of_fileOf? hfile, place_of_current (current_makeParent _ _)]

/-- **Indexes apart.**  Two shards have the same path for their indexes if and only if they have
the same number and their datasets lead to one path from the directory of the indexes.  So for two
different shards:

* if no dataset begins with a slash, the paths are different, and begin with that directory;
* if both datasets are plain, and the data directory is not given as a URI, the paths lead to
  different places below the directory.  What is opened under a path is the file at its place.  A
  command on the one shard leaves the index of the other as it is, and makes none where there is no
  file; and whatever is in that index, it comes to the same result and leaves the same elsewhere. -/
theorem indexes_apart :
    (c.storage.indexPath k.environment.home? s = c.storage.indexPath k.environment.home? t ↔
      Path.join (c.storage.indexDirectory k.environment.home?) s.dataset =
          Path.join (c.storage.indexDirectory k.environment.home?) t.dataset ∧
        s.number = t.number) ∧
    (s ≠ t → Path.isAbsolute s.dataset = false → Path.isAbsolute t.dataset = false →
      c.storage.indexPath k.environment.home? s ≠ c.storage.indexPath k.environment.home? t ∧
      Path.stem (c.storage.indexDirectory k.environment.home?) <+:
        (c.storage.indexPath k.environment.home? s).toList) ∧
    (s ≠ t → s.IsPlain → t.IsPlain →
      (c.storage.dataPath k.environment.home?).startsWith "file:" = false → ∀ d : Disk,
      d.place (c.storage.indexPath k.environment.home? s) ≠
          d.place (c.storage.indexPath k.environment.home? t) ∧
      (∃ names, names ≠ [] ∧ d.place (c.storage.indexPath k.environment.home? s) =
        d.place (c.storage.indexDirectory k.environment.home?) ++ names) ∧
      (∀ o, (d.openDatabase (c.storage.indexPath k.environment.home? s) .index).1 = .ok o →
        o.address = some (d.place (c.storage.indexPath k.environment.home? s))) ∧
      ∀ command : Command, command.shard? = some s →
        let b := d.place (c.storage.indexPath k.environment.home? t)
        ((command.run k c d).2.node? b = d.node? b ∨
          ∀ n, d.node? b = some n ∨ (command.run k c d).2.node? b = some n → n = .directory) ∧
        ∀ held d', AlikeBut d.current b held d d' →
          Agree d.current b held (command.run k c d) (command.run k c d')) := by
  refine ⟨Config.Storage.indexPath_eq_iff, fun hst hs ht => ⟨?_, ?_⟩,
    fun hst hs ht huri d => ⟨?_, ?_, ?_, ?_⟩⟩
  · exact Config.Storage.indexPath_ne hst hs ht
  · rw [Config.Storage.indexPath, ← Config.Storage.indexDirectory,
      Path.toList_join ((Config.Storage.isAbsolute_indexName s).trans hs)]
    exact List.prefix_append _ _
  · exact d.place_indexPath_ne hst hs ht
  · exact ⟨_, hs.names_ne_nil, hs.place_indexPath _ _ d⟩
  · exact fun o ho => address_of_index k c hs.isRelative huri ho
  · intro command hshard b
    have avoids := avoids_of_isPlain k c hst hs ht huri d
    exact ⟨node?_run avoids hshard, fun held d' h => agree_run h avoids hshard⟩

end Command

/-! ## An index in a directory of its own, and an index that is shared -/

/-- A disk on which there is an index of a dataset `b/c`. -/
def withNested (content : Database) : Disk :=
  (oneRecord.put ["data", "index", "b"] .directory).put ["data", "index", "b", "c-0.db"]
    (.database content)

/-- An index with one entry. -/
def oneEntry : Database := { index := some (Table.empty.insert [171] ⟨0, 0, 5⟩) }

lemma alikeBut_withNested (content content' : Database) :
    AlikeBut [] ["data", "index", "b", "c-0.db"] (.databases content content')
      (withNested content) (withNested content') := by
  have hroot : ["data", "index", "b", "c-0.db"] ≠ [] := List.cons_ne_nil _ _
  refine ⟨rfl, rfl, fun a ha => ?_, ?_, ?_⟩
  · rw [withNested, withNested, node?_put _ _ a hroot, node?_put _ _ a hroot, if_neg ha, if_neg ha]
  · rw [withNested, node?_put _ _ _ hroot, if_pos rfl]
  · rw [withNested, node?_put _ _ _ hroot, if_pos rfl]

/-- The index of a dataset `a` is rebuilt in the same way whether that of `b/c` is empty or not,
and the latter keeps its entry. -/
theorem indexes_apart_nested :
    let k : Command.Circumstances := { environment := {}, now := 0, processors := 1 }
    let c : Config := { storage := { dataDir := "data" } }
    let rebuilt := fun content =>
      (Command.rebuild ⟨"a", 0⟩).run k c (withNested content)
    c.storage.indexPath none ⟨"a", 0⟩ ≠ c.storage.indexPath none ⟨"b/c", 0⟩ ∧
      (∃ o, ((withNested {}).openDatabase (c.storage.indexPath none ⟨"b/c", 0⟩) .index).1 =
        .ok o ∧ o.address = some ["data", "index", "b", "c-0.db"]) ∧
      (rebuilt oneEntry).1 = (rebuilt {}).1 ∧
      (rebuilt oneEntry).2.node? ["data", "index", "b", "c-0.db"] = some (.database oneEntry) := by
  intro k c rebuilt
  have hst : (⟨"a", 0⟩ : Shard) ≠ ⟨"b/c", 0⟩ := by decide
  have hplace : (withNested {}).place (c.storage.indexPath none ⟨"b/c", 0⟩) =
      ["data", "index", "b", "c-0.db"] := by decide +kernel
  have opens : ((withNested {}).openDatabase
      (c.storage.indexPath none ⟨"b/c", 0⟩) .index).1.isOk = true := by decide +kernel
  obtain ⟨-, differ, apart⟩ := Command.indexes_apart k c (s := ⟨"a", 0⟩) (t := ⟨"b/c", 0⟩)
  obtain ⟨-, -, -, runs⟩ :=
    apart hst (by decide +kernel) (by decide +kernel) (by decide +kernel) (withNested {})
  obtain ⟨-, -, placed⟩ := Command.indexes_apart k c (s := ⟨"b/c", 0⟩) (t := ⟨"a", 0⟩)
  obtain ⟨-, -, opened, -⟩ :=
    placed hst.symm (by decide +kernel) (by decide +kernel) (by decide +kernel) (withNested {})
  have agree := (runs (.rebuild ⟨"a", 0⟩) rfl).2 (.databases {} oneEntry) (withNested oneEntry)
    (hplace ▸ alikeBut_withNested {} oneEntry)
  refine ⟨(differ hst (by decide +kernel) (by decide +kernel)).1, ?_, agree.result, ?_⟩
  · cases hresult : ((withNested {}).openDatabase
        (c.storage.indexPath none ⟨"b/c", 0⟩) .index).1 with
    | error e =>
      rw [hresult] at opens
      cases opens
    | ok o => exact ⟨o, rfl, hplace ▸ opened o hresult⟩
  · exact hplace ▸ agree.disks.held.2

/-- Behind an absolute name the directory of the indexes is dropped: such a dataset has an index
outside of it, or that of another dataset.  Then what was built for the one is shown for the
other. -/
theorem index_shared_of_absolute :
    let storage : Config.Storage := { dataDir := "/data" }
    let asked := step "/data" (.stats ⟨"/data/index/a", 0⟩)
    (⟨"a", 0⟩ : Shard) ≠ ⟨"/data/index/a", 0⟩ ∧
      storage.indexPath none ⟨"a", 0⟩ = storage.indexPath none ⟨"/data/index/a", 0⟩ ∧
      storage.indexPath none ⟨"/x", 0⟩ = "/x-0.db" ∧
      (asked.2.run asked.1 (carryOut (built "/data" "a") oneRecord)).1 =
        .ok (.statistics ⟨"/data/index/a", 0⟩ "/data/index/a-0.db" 1 (some 0)) :=
  ⟨by decide, by decide +kernel, by decide +kernel, by decide +kernel⟩

end ShardIndex
