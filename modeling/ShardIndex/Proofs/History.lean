import ShardIndex.Command.Run
import ShardIndex.Proofs.Permanence
import ShardIndex.Proofs.Place

/-!
# Ids stay over a history of commands

Commands are carried out one after another on the files of a disk, under whatever circumstances:
with any arguments, in any order of tasks, and whether they end well or not.  Each of them leaves
sound tables sound, and no key loses its id in a file that does not lie beside another one
(`preserves_run`); so the same holds over a history (`ids_of_history`).

A file beside another one is one that opening the other may take away.  The file of an index that
is not named by a URI is none, because its name ends differently (`not_isBeside_of_openDatabase`).
-/

namespace ShardIndex

open Command Bootstrap Identity

namespace Disk

/-! ## Disks on which ids stay -/

/-- Whether on a second disk the tables that were sound are sound, and have all ids that they had
unless they lie beside other files. -/
def Preserves (d d' : Disk) : Prop :=
  ∀ a, (d.rowsAt a).IsSound →
    (d'.rowsAt a).IsSound ∧ (¬ IsBeside a → (d.rowsAt a).Keeps (d'.rowsAt a))

variable {d d' d'' : Disk}

lemma Preserves.trans (h : Preserves d d') (h' : Preserves d' d'') : Preserves d d'' := by
  intro a hsound
  obtain ⟨hsound', hkeeps⟩ := h a hsound
  obtain ⟨hsound'', hkeeps'⟩ := h' a hsound'
  exact ⟨hsound'', fun ha => (hkeeps ha).trans (hkeeps' ha)⟩

lemma Leaves.preserves (h : Leaves d d') : Preserves d d' := by
  intro a hsound
  rcases h a with heq | ⟨hbeside, hempty⟩
  · rw [heq]
    exact ⟨hsound, fun _ => .refl _⟩
  · rw [hempty]
    exact ⟨Snapshot.isSound_empty, fun ha => absurd hbeside ha⟩

/-- Saving a table in which ids have stayed. -/
lemma preserves_saveIndex {o : Opened} {rows : Snapshot} (hopened : o.Fits d)
    (h : o.index.IsSound → rows.IsSound ∧ o.index.Keeps rows) :
    Preserves d (d.saveIndex o rows) := by
  cases ha : o.address with
  | none =>
    rw [saveIndex, save_of_address_eq_none ha]
    exact (Leaves.refl d).preserves
  | some a =>
    have index : o.index = d.rowsAt a := by rw [hopened.index, ha]; rfl
    rw [index] at h
    -- the file has the saved rows now, and every other one has those it had
    refine Preserves.trans ?_ (touches_save ha _ _).leaves.preserves
    intro b hsound
    by_cases hb : b = a ∧ a ≠ []
    · obtain ⟨rfl, hne⟩ := hb
      rw [rowsAt_put d _ b hne, if_pos rfl]
      obtain ⟨hrows, hkeeps⟩ := h hsound
      exact ⟨hrows, fun _ => hkeeps⟩
    · have same : (d.put a (.database { d.databaseAt a with index := some rows })).rowsAt b =
          d.rowsAt b := by
        by_cases hne : a = []
        · rw [hne, rowsAt_put_nil]
        · rw [rowsAt_put d _ b hne, if_neg fun heq => hb ⟨heq, hne⟩]
      rw [same]
      exact ⟨hsound, fun _ => .refl _⟩

end Disk

open Disk

/-! ## Commands -/

namespace Command

variable (k : Circumstances) (c : Config) (shard : Shard) (d : Disk)

lemma openShard_spec :
    Leaves d (openShard k c shard d).2 ∧
      ∀ opened, (openShard k c shard d).1 = .ok opened →
        opened.index.Fits (openShard k c shard d).2 := by
  unfold openShard
  dsimp only
  obtain ⟨hstore, -⟩ := openDatabase_spec d (c.storage.storePath k.environment.home?) .store
  split
  · rename_i e d₁ hd₁
    rw [hd₁] at hstore
    exact ⟨hstore, fun o ho => by cases ho⟩
  · rename_i stored d₁ hd₁
    rw [hd₁] at hstore
    obtain ⟨hindex, hopened⟩ :=
      openDatabase_spec d₁ (c.storage.indexPath k.environment.home? shard) .index
    split
    · rename_i e d₂ hd₂
      rw [hd₂] at hindex
      exact ⟨hstore.trans hindex, fun o ho => by cases ho⟩
    · rename_i indexed d₂ hd₂
      rw [hd₂] at hindex hopened
      refine ⟨hstore.trans hindex, fun opened ho => ?_⟩
      obtain rfl := Except.ok.inj ho
      exact hopened indexed rfl

/-- Filling an index keeps ids, whether it ends well or not. -/
lemma preserves_fill (operation : String) (source : Shard) (schemas : Schema.Registry)
    (strategy : Strategy) :
    Preserves d (fill k c operation shard source schemas strategy d).2 := by
  obtain ⟨hleaves, hopened⟩ := openShard_spec k c shard d
  unfold fill
  split
  · rename_i p d₁ hd₁
    rw [hd₁] at hleaves
    exact hleaves.preserves
  · rename_i opened d₁ hd₁
    rw [hd₁] at hleaves hopened
    dsimp only
    split
    · split
      · exact hleaves.preserves
      · exact hleaves.preserves
    · have saved : Preserves d₁ (d₁.saveIndex opened.index (strategy.run
          ⟨c.building.limit k.processors, k.now⟩ schemas (⟨opened.reader, k.breaks⟩ :
            Interrupted PagedReader) source k.schedule
          (World.onTable opened.index.index k.troubles)).2.index.inner.stored) :=
        preserves_saveIndex (hopened opened rfl) fun hsound =>
          sound_of_run strategy _ schemas _ source k.schedule hsound k.troubles
      split
      · exact hleaves.preserves.trans saved
      · exact hleaves.preserves.trans saved

/-- Loading records changes no index. -/
lemma leaves_loadFile (file : Path) : Leaves d (loadFile k c shard file d).2 := by
  unfold loadFile
  dsimp only
  obtain ⟨hstore, hopened⟩ := openDatabase_spec d (c.storage.storePath k.environment.home?) .store
  split
  · rename_i e d₁ hd₁
    rw [hd₁] at hstore
    exact hstore
  · rename_i stored d₁ hd₁
    rw [hd₁] at hstore hopened
    split
    · rename_i p hp
      split
      · exact hstore.trans (leaves_breakOff (hopened stored rfl).traces d₁)
      · exact hstore
    · split
      · exact hstore.trans (leaves_saveStore _ _ _)
      · exact hstore.trans (leaves_saveStore _ _ _)

/-- Showing what an index holds changes none, and what is shown is in its file. -/
lemma showStats_spec :
    Leaves d (showStats k c shard d).2 ∧
      ∀ report, (showStats k c shard d).1 = .ok report →
        ∃ o : Opened, o.Fits (showStats k c shard d).2 ∧
          report = .statistics shard (c.storage.indexPath k.environment.home? shard) o.index.size
            (Snapshot.maxId o.index) := by
  unfold showStats
  dsimp only
  obtain ⟨hleaves, hopened⟩ :=
    openDatabase_spec d (c.storage.indexPath k.environment.home? shard) .index
  split
  · rename_i e d₁ hd₁
    rw [hd₁] at hleaves
    exact ⟨hleaves, fun r hr => by cases hr⟩
  · rename_i indexed d₁ hd₁
    rw [hd₁] at hleaves hopened
    refine ⟨hleaves, fun r hr => ⟨indexed, hopened indexed rfl, (Except.ok.inj hr).symm⟩⟩

lemma leaves_openLog {d' : Disk} (h : openLog c d = .ok d') : Leaves d d' := by
  unfold openLog at h
  split at h
  · rw [← Except.ok.inj h]
    exact .refl d
  · split at h
    · cases h
    · rename_i htouch
      rw [← Except.ok.inj h]
      exact leaves_touch htouch

/-- A command other than one that writes a configuration file keeps ids. -/
lemma preserves_run {command : Command} (h : ∀ output, command ≠ .writeConfig output) :
    Preserves d (command.run k c d).2 := by
  cases command with
  | ingest shard file =>
    rw [Command.run]
    exact (leaves_loadFile k c shard d file).preserves
  | rebuild shard =>
    rw [Command.run]
    exact preserves_fill k c shard d _ _ _ _
  | rebuildLive shard checkpoint parallelism =>
    rw [Command.run]
    exact preserves_fill k c shard d _ _ _ _
  | refresh shard rawDataset firstHour lastHour parallelism =>
    rw [Command.run]
    split
    · exact (Leaves.refl d).preserves
    · exact preserves_fill k c shard d _ _ _ _
  | stats shard =>
    rw [Command.run]
    exact (showStats_spec k c shard d).1.preserves
  | writeConfig output => exact absurd rfl (h output)

end Command

/-! ## Histories -/

namespace Invocation

/-- Whether an invocation is to give the configuration file to begin with. -/
def GivesConfig (i : Invocation) : Prop := ∃ output, i.command = .writeConfig output

/-- Carrying out an invocation is to find its configuration, to open its log, and to run its
command. -/
lemma run_cases {i : Invocation} (h : ¬ i.GivesConfig) (k : Circumstances) (d : Disk) :
    (∃ p, i.run k d = (.error p, d)) ∨
      ∃ c d', openLog c d = .ok d' ∧ i.run k d = i.command.run k c d' := by
  unfold run
  split
  · rename_i output hcommand
    exact absurd ⟨output, hcommand⟩ h
  · split
    · exact Or.inl ⟨_, rfl⟩
    · rename_i c hc
      split
      · exact Or.inl ⟨_, rfl⟩
      · rename_i d' hd'
        exact Or.inr ⟨c, d', hd', rfl⟩

/-- An invocation keeps ids, whether it ends well or not. -/
lemma preserves_run {i : Invocation} (h : ¬ i.GivesConfig) (k : Circumstances) (d : Disk) :
    Preserves d (i.run k d).2 := by
  rcases run_cases h k d with ⟨p, hrun⟩ | ⟨c, d', hlog, hrun⟩
  · rw [hrun]
    exact (Leaves.refl d).preserves
  · rw [hrun]
    have hcommand : ∀ output, i.command ≠ .writeConfig output := fun output heq => h ⟨output, heq⟩
    exact (leaves_openLog c d hlog).preserves.trans (Command.preserves_run k c d' hcommand)

end Invocation

/-- Carry out invocations one after another, each under its own circumstances. -/
def carryOut (history : List (Circumstances × Invocation)) (d : Disk) : Disk :=
  history.foldl (fun d step => (step.2.run step.1 d).2) d

lemma carryOut_append (earlier later : List (Circumstances × Invocation)) (d : Disk) :
    carryOut (earlier ++ later) d = carryOut later (carryOut earlier d) :=
  List.foldl_append

/-- A history keeps ids. -/
lemma preserves_carryOut {history : List (Circumstances × Invocation)}
    (h : ∀ step ∈ history, ¬ step.2.GivesConfig) (d : Disk) :
    Preserves d (carryOut history d) := by
  induction history generalizing d with
  | nil => exact (Leaves.refl d).preserves
  | cons step rest ih =>
    obtain ⟨hstep, hrest⟩ := List.forall_mem_cons.1 h
    exact (Invocation.preserves_run hstep step.1 d).trans (ih hrest _)

/-- What is shown of an index whose table is sound: its largest id is one less than the number of
its entries. -/
lemma Invocation.statistics_of_run {i : Invocation} {shard : Shard} (h : i.command = .stats shard)
    {k : Circumstances} {d : Disk} (hsound : ∀ a, (d.rowsAt a).IsSound) {report : Report}
    (hreport : (i.run k d).1 = .ok report) :
    ∃ file n maxId, report = .statistics shard file n maxId ∧ n = maxId.elim 0 (· + 1) := by
  have hcommand : ¬ i.GivesConfig := by
    rintro ⟨output, houtput⟩
    cases h.symm.trans houtput
  rcases Invocation.run_cases hcommand k d with ⟨p, hrun⟩ | ⟨c, d', hlog, hrun⟩
  · rw [hrun] at hreport
    cases hreport
  · rw [hrun, h, Command.run] at hreport
    obtain ⟨hleaves, hshown⟩ := showStats_spec k c shard d'
    obtain ⟨o, hfits, rfl⟩ := hshown report hreport
    have sound : o.index.IsSound := by
      rw [hfits.index]
      cases o.address with
      | none => exact Snapshot.isSound_empty
      | some a =>
        exact (((leaves_openLog c d hlog).trans hleaves).preserves a (hsound a)).1
    exact ⟨_, _, _, rfl, sound.dense.size_eq⟩

/-- **Ids over a history.**  On a disk whose index tables are empty at first, after any history of
commands, whether they end well or not:

* the ids of every table are the numbers from nought up to its size, each used by one key;
* a key that had an id after some part of the history has it still, in every file that does not
  lie beside another one;
* the statistics of a shard show a largest id that is one less than the number of entries.

The file of an index that is not named by a URI does not lie beside another one. -/
theorem ids_of_history {d : Disk} (hempty : ∀ a, d.rowsAt a = Table.empty)
    {history : List (Circumstances × Invocation)}
    (h : ∀ step ∈ history, ¬ step.2.GivesConfig) :
    (∀ a, ((carryOut history d).rowsAt a).IsDense) ∧
    (∀ earlier later, history = earlier ++ later → ∀ a, ¬ IsBeside a →
      ((carryOut earlier d).rowsAt a).Keeps ((carryOut history d).rowsAt a)) ∧
    (∀ (k : Circumstances) (i : Invocation) (shard : Shard) (report : Report),
      i.command = .stats shard → (i.run k (carryOut history d)).1 = .ok report →
      ∃ file n maxId, report = .statistics shard file n maxId ∧ n = maxId.elim 0 (· + 1)) ∧
    (∀ (d' : Disk) (storage : Config.Storage) (home : Option Path) (shard : Shard) (o : Opened),
      (storage.indexPath home shard).startsWith "file:" = false →
      (d'.openDatabase (storage.indexPath home shard) .index).1 = .ok o →
      ∃ a, o.address = some a ∧ ¬ IsBeside a) := by
  have first (a : Address) : (d.rowsAt a).IsSound := by
    rw [hempty a]
    exact Snapshot.isSound_empty
  have sound (a : Address) : ((carryOut history d).rowsAt a).IsSound :=
    (preserves_carryOut h d a (first a)).1
  refine ⟨fun a => (sound a).dense, ?_, fun k i shard report hstats hreport =>
    Invocation.statistics_of_run hstats sound hreport, fun d' storage home shard o =>
    not_isBeside_of_openDatabase⟩
  rintro earlier later rfl a ha
  rw [carryOut_append]
  -- the later part begins with tables that the earlier part has left sound
  have before := preserves_carryOut (fun step hstep => h step (List.mem_append_left _ hstep)) d
  have after := preserves_carryOut (fun step hstep => h step (List.mem_append_right _ hstep))
    (carryOut earlier d)
  exact (after a (before a (first a)).1).2 ha

/-- A disk with a file of one record to be loaded, and directories for the files of a store. -/
def oneRecord : Disk :=
  ((({} : Disk).put ["in"] (.file (Bytes.ofText
    "\x7b\"key_hex\":\"aa\",\"start\":0,\"end\":60,\"hour\":0\x7d"))).put
    ["data"] .directory).put ["data", "index"] .directory

lemma rowsAt_oneRecord (a : Address) : oneRecord.rowsAt a = Table.empty := by
  have blank (b : Address) : ({} : Disk).rowsAt b = Table.empty := by
    by_cases hb : b = []
    · rw [hb, rowsAt_nil]
    · exact rowsAt_of_node?_eq_none (by simp [node?, hb])
  have stays {d : Disk} (h : ∀ b, d.rowsAt b = Table.empty) {n : Node}
      (hn : n.rows = Table.empty) (b c : Address) : (d.put b n).rowsAt c = Table.empty := by
    rw [rowsAt_put_of_eq (hn.trans (h b).symm), h]
  exact stays (stays (stays blank rfl _) rfl _) rfl _ a

/-- A command for the store in some data directory. -/
def step (dataDir : Path) (command : Command) : Circumstances × Invocation :=
  ({ environment := { entries := [("CHRONICLE_INDEX_DATA_DIR", dataDir)] }, now := 0,
     processors := 1 }, ⟨command, none⟩)

/-- The record is loaded, and the index of its dataset is built. -/
def built (dataDir : Path) (dataset : String) : List (Circumstances × Invocation) :=
  [step dataDir (.ingest ⟨dataset, 0⟩ "in"), step dataDir (.rebuild ⟨dataset, 0⟩)]

lemma not_givesConfig_of_mem_built {dataDir : Path} {dataset : String} :
    ∀ step ∈ built dataDir dataset, ¬ step.2.GivesConfig := by
  intro step hstep
  rcases List.mem_pair.1 hstep with rfl | rfl
  · rintro ⟨output, houtput⟩
    cases houtput
  · rintro ⟨output, houtput⟩
    cases houtput

/-- An index of one record has one id, and it is the first. -/
theorem ids_of_history_built :
    ((carryOut (built "data" "a") oneRecord).rowsAt ["data", "index", "a-0.db"]).ids =
        [([170], 0)] ∧
      ((carryOut (built "data" "a") oneRecord).rowsAt ["data", "index", "a-0.db"]).IsDense :=
  ⟨by decide +kernel, (ids_of_history rowsAt_oneRecord not_givesConfig_of_mem_built).1 _⟩

/-- In a data directory that is given as a URI the index of one dataset can lie where a companion
of another is looked for, be it the journal, the log, or the index of the log.  It is lost when the
other is opened, though only to show what is in it. -/
theorem id_lost_of_uri :
    (∀ a, oneRecord.rowsAt a = Table.empty) ∧ ∀ ending ∈ companions,
      let history := built "file:data" ("a" ++ ending ++ "?")
      let file := ["data", "index", "a" ++ ending]
      ((carryOut history oneRecord).rowsAt file).id? [170] = some 0 ∧
      ((carryOut (history ++ [step "file:data" (.stats ⟨"a?", 0⟩)]) oneRecord).rowsAt file).id?
        [170] = none :=
  ⟨rowsAt_oneRecord, by decide +kernel⟩

end ShardIndex
