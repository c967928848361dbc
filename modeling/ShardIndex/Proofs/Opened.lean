import ShardIndex.Proofs.Opening

/-!
# The store that is opened

What is opened for a part of a database holds the rows of the column store that were in its file
before, none if there was no file (`Disk.store_of_openDatabase`).  Opening may make directories and
a file, undo a journal and continue a log.  But what it returns is made of what it has found in the
file, so it is enough to follow the values that its steps hand on (`Disk.Yields`).
-/

namespace ShardIndex.Disk

/-- The rows of a column store in the file at an address; none if there is no such file or table. -/
def storeAt (d : Disk) (a : Address) : PagedStore := (d.databaseAt a).store.getD {}

/-- Whether a step returns nothing but what is wanted, on any disk. -/
def Yields {α : Type} (x : Step α) (Q : α → Prop) : Prop :=
  ∀ (d : Disk) (v : α), (x.run.run d).1 = .ok v → Q v

namespace Yields

variable {α β : Type} {Q : α → Prop} {R : β → Prop}

lemma anything (x : Step α) : Yields x fun _ => True := fun _ _ _ => trivial

lemma pure {v : α} (h : Q v) : Yields (Pure.pure v) Q := fun _ _ hv => Except.ok.inj hv ▸ h

lemma throw (e : Failure) : Yields (MonadExcept.throw e : Step α) Q := fun _ _ hv => by cases hv

lemma bind {x : Step α} {f : α → Step β} (hx : Yields x Q) (hf : ∀ v, Q v → Yields (f v) R) :
    Yields (x >>= f) R := by
  intro d v hv
  rw [ExceptT.run_bind, StateT.run_bind] at hv
  cases hresult : x.run.run d with
  | mk result d' =>
    rw [hresult] at hv
    cases result with
    | ok u => exact hf u (hx d u (congrArg Prod.fst hresult)) d' v hv
    | error e => cases hv

/-- What a step returns does not matter for what comes after it. -/
lemma skip {x : Step α} {f : α → Step β} (hf : ∀ v, Yields (f v) R) : Yields (x >>= f) R :=
  bind (anything x) fun v _ => hf v

end Yields

/-! ## What opening a file returns -/

/-- The rows of a column store in what was found in a file. -/
def Content.stored : Content → PagedStore
  | .database content => content.store.getD {}
  | _ => {}

lemma store_addTo (part : Part) (content : Database) :
    (part.addTo content).store.getD {} = content.store.getD {} := by
  cases part <;> rfl

variable {a : Address} {access : Access} {part : Part} {d : Disk} {o : Opened}

/-- An open database is in the file at an address, and has the rows. -/
structure Opened.Stores (o : Opened) (a : Address) (t : PagedStore) : Prop where
  address : o.address = some a
  store : o.store = t

lemma yields_prepare : Yields (prepare a access part) fun o => o.Stores a {} := by
  unfold prepare
  refine .skip fun _ => .skip fun _ => .skip fun _ => .skip fun _ => .skip fun _ => ?_
  refine .skip fun _ => .skip fun _ => .skip fun _ => ?_
  exact .pure ⟨rfl, store_addTo part _⟩

lemma yields_keepLog (content : Database) (inLog : Bool) :
    Yields (keepLog a access content inLog) fun content' => content'.store = content.store := by
  unfold keepLog
  split
  · exact .skip fun _ => .skip fun _ => .skip fun _ => .skip fun _ => .pure rfl
  · exact .pure rfl

lemma yields_enterDatabase (content : Database) (inLog : Bool) :
    Yields (enterDatabase a access part content inLog) fun o =>
      o.Stores a (content.store.getD {}) := by
  unfold enterDatabase
  refine .skip fun _ => .bind (yields_keepLog content inLog) fun content' h => ?_
  refine .skip fun _ => .skip fun _ => .skip fun _ => .skip fun _ => ?_
  exact .pure ⟨rfl, (store_addTo part _).trans (congrArg (Option.getD · {}) h)⟩

lemma yields_openFixed (found : Content) :
    Yields (openFixed a part found) fun o => o.Stores a found.stored := by
  cases found with
  | database content => exact .skip fun _ => .pure ⟨rfl, rfl⟩
  | empty => exact .throw _
  | foreign => exact .throw _

lemma yields_openShared (found : Content) :
    Yields (openShared a access part found) fun o => o.Stores a found.stored := by
  unfold openShared
  refine .skip fun _ => .skip fun _ => .skip fun inLog => ?_
  cases found with
  | empty => exact yields_prepare
  | foreign => exact .skip fun _ => .throw _
  | database content => exact yields_enterDatabase content inLog

/-- Looking for a file changes nothing. -/
lemma run_findLike (access : Access) (d : Disk) : ((findLike access).run.run d).2 = d := by
  unfold findLike
  split
  · rename_i p _
    show ((demand (d.pathExists p)).run.run d).2 = d
    unfold demand
    split <;> rfl
  · rfl

/-- To look at the disk and go on is to go on with the disk. -/
lemma run_get_bind {α : Type} (f : Disk → Step α) (d : Disk) :
    (MonadState.get >>= f).run.run d = (f d).run.run d := rfl

/-- What is found in a file has the rows that are there. -/
lemma stored_of_findFile {found : Content} (h : ((findFile a access).run.run d).1 = .ok found) :
    found.stored = d.storeAt a := by
  rw [storeAt, databaseAt]
  unfold findFile at h
  rw [run_get_bind] at h
  cases hnode : d.node? a with
  | none =>
    rw [hnode] at h
    have yields : Yields (demand access.creates >>= fun _ => putNode a (.file []) >>= fun _ =>
        Pure.pure Content.empty) fun found => found = .empty :=
      .skip fun _ => .skip fun _ => .pure rfl
    rw [yields d found h]
    rfl
  | some node =>
    rw [hnode] at h
    rcases node with _ | bytes | content
    · cases h
    · rcases bytes with _ | ⟨b, _ | ⟨b', rest⟩⟩ <;> cases h <;> rfl
    · cases h
      rfl

/-- What is opened in a file has the rows that are there. -/
lemma stores_of_openFile (h : ((openFile a access part).run.run d).1 = .ok o) :
    o.Stores a (d.storeAt a) := by
  unfold openFile at h
  rw [ExceptT.run_bind, StateT.run_bind] at h
  have unchanged := run_findLike access d
  rcases hlike : (findLike access).run.run d with ⟨_ | u, d'⟩
  · rw [hlike] at h
    cases h
  · rw [hlike] at h unchanged
    obtain rfl : d' = d := unchanged
    have opens (found : Content) :
        Yields (if access.isFixed then openFixed a part found else openShared a access part found)
          fun o => o.Stores a found.stored := by
      split
      · exact yields_openFixed found
      · exact yields_openShared found
    change ((findFile a access >>= fun found => if access.isFixed then openFixed a part found
      else openShared a access part found).run.run d').1 = _ at h
    rw [ExceptT.run_bind, StateT.run_bind] at h
    rcases hfind : (findFile a access).run.run d' with ⟨_ | found, d''⟩
    · rw [hfind] at h
      cases h
    · rw [hfind] at h
      rw [← stored_of_findFile (congrArg Prod.fst hfind)]
      exact opens found d'' o h

/-! ## Whole operations -/

lemma databaseAt_makeAlong (d : Disk) (a : Address) (names : List String) (b : Address) :
    (d.makeAlong a names).2.databaseAt b = d.databaseAt b := by
  induction names generalizing d a with
  | nil => rfl
  | cons name rest ih =>
    unfold makeAlong
    dsimp only
    split
    · exact ih d _
    · rfl
    · rename_i hnone
      split
      · rfl
      · rw [ih, databaseAt, databaseAt]
        have hroot : child a name ≠ [] := fun hroot => by
          rw [hroot] at hnone
          cases hnone
        rw [node?_put _ _ _ hroot]
        by_cases hb : b = child a name
        · rw [if_pos hb, hb, hnone]
        · rw [if_neg hb]

/-- **The store that is opened.**  A database in a file is not at the root, and is opened with the
rows of the column store that were in the file before; a database in memory has none. -/
theorem store_of_openDatabase {p : Path} (h : (d.openDatabase p part).1 = .ok o) :
    (o.address = none → o.store = {}) ∧
      ∀ a, o.address = some a → a ≠ [] ∧ o.store = d.storeAt a := by
  unfold openDatabase at h
  have made (b : Address) : (d.makeParent p).2.databaseAt b = d.databaseAt b := by
    unfold makeParent
    split
    · rfl
    · split
      · rfl
      · exact databaseAt_makeAlong d _ _ b
  split at h
  · cases h
  · rename_i d₁ hd₁
    rw [hd₁] at made
    split at h
    · cases h
    · obtain rfl := Except.ok.inj h
      exact ⟨fun _ => rfl, fun a ha => by cases ha⟩
    · split at h
      · cases h
      · rename_i a ha
        have stores := stores_of_openFile h
        have allowed := of_decide_eq_true (Option.filter_eq_some_iff.1 ha).2
        refine ⟨fun hnone => ?_, fun b hb => ?_⟩
        · cases hnone.symm.trans stores.address
        · obtain rfl := Option.some.inj (stores.address.symm.trans hb)
          refine ⟨allowed.1, stores.store.trans ?_⟩
          rw [storeAt, made, storeAt]

end ShardIndex.Disk
