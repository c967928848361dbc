import ShardIndex.Disk.Opening
import Mathlib.Data.List.Basic

/-!
# What opening a database does to tables

Opening a database works on its own file and on the files beside it.  It never changes the rows
of an index in its own file, and a file beside it can only be emptied; every other file is left
alone (`Touches`).  All steps of opening are of this kind, so the whole is
(`openDatabase_spec`), and what is opened has the rows that are in the file.

A file can thus lose its rows only if its name is that of a file beside another one (`IsBeside`).
-/

namespace ShardIndex

/-- The rows of an index in a node; none if there is no such table. -/
def Node.rows : Node → Snapshot
  | .database content => content.index.getD Table.empty
  | _ => Table.empty

namespace Disk

/-- The rows of an index in the file at an address; none if there is no such file or table. -/
def rowsAt (d : Disk) (a : Address) : Snapshot := (d.databaseAt a).index.getD Table.empty

lemma rowsAt_eq (d : Disk) (a : Address) : d.rowsAt a = (d.node? a).elim Table.empty Node.rows := by
  unfold rowsAt databaseAt
  cases d.node? a with
  | none => rfl
  | some n => cases n <;> rfl

lemma rowsAt_of_node? {d : Disk} {a : Address} {n : Node} (h : d.node? a = some n) :
    d.rowsAt a = n.rows := by
  rw [rowsAt_eq, h]
  rfl

lemma rowsAt_of_node?_eq_none {d : Disk} {a : Address} (h : d.node? a = none) :
    d.rowsAt a = Table.empty := by
  rw [rowsAt_eq, h]
  rfl

/-- The root is no file. -/
lemma rowsAt_nil (d : Disk) : d.rowsAt [] = Table.empty := rowsAt_of_node? (n := .directory) rfl

lemma rowsAt_put (d : Disk) {a : Address} (n : Node) (b : Address) (h : a ≠ []) :
    (d.put a n).rowsAt b = if b = a then n.rows else d.rowsAt b := by
  rw [rowsAt_eq, node?_put d n b h]
  split
  · rfl
  · rw [rowsAt_eq]

/-- Putting a node at the root changes nothing. -/
lemma node?_put_nil (d : Disk) (n : Node) (a : Address) : (d.put [] n).node? a = d.node? a := by
  unfold node? put
  by_cases ha : a = []
  · rw [if_pos ha, if_pos ha]
  · have hne : ([] : Address) ≠ a := fun h => ha h.symm
    rw [if_neg ha, if_neg ha]
    simp [Std.TreeMap.getElem?_insert, hne]

lemma rowsAt_put_nil (d : Disk) (n : Node) (b : Address) : (d.put [] n).rowsAt b = d.rowsAt b := by
  rw [rowsAt_eq, rowsAt_eq, node?_put_nil]

lemma rowsAt_erase (d : Disk) {a : Address} (b : Address) (h : a ≠ []) :
    (d.erase a).rowsAt b = if b = a then Table.empty else d.rowsAt b := by
  rw [rowsAt_eq, node?_erase d b h]
  split
  · rfl
  · rw [rowsAt_eq]

/-- A node with the rows that are at its address already changes no rows. -/
lemma rowsAt_put_of_eq {d : Disk} {a : Address} {n : Node} (h : n.rows = d.rowsAt a)
    (b : Address) : (d.put a n).rowsAt b = d.rowsAt b := by
  by_cases ha : a = []
  · subst ha
    exact d.rowsAt_put_nil n b
  · rw [rowsAt_put d n b ha]
    split
    · rename_i hb
      rw [h, hb]
    · rfl

/-! ## Files beside a database -/

lemma beside_ne_nil (a : Address) (ending : String) : beside a ending ≠ [] := by simp [beside]

/-- No file lies beside itself. -/
lemma beside_ne_self (a : Address) {ending : String} (h : ending ≠ "") : beside a ending ≠ a := by
  intro heq
  have hlast := congrArg (fun l => l.getLast?.getD "") heq
  simp only [beside, besideName, List.getLast?_concat, Option.getD_some] at hlast
  refine h (String.toList_inj.1 ?_)
  have hlist := congrArg String.toList hlast
  rw [String.toList_append] at hlist
  exact List.self_eq_append_right.1 hlist.symm

lemma ne_empty_of_mem_companions {ending : String} (h : ending ∈ companions) : ending ≠ "" := by
  rintro rfl
  revert h
  decide

/-- Whether an address is that of a file beside some database. -/
def IsBeside (a : Address) : Prop := ∃ b, ∃ ending ∈ companions, a = beside b ending

/-- Whether a disk differs from another one only as it may by work on the database at an address:
some files beside it have lost their rows. -/
def Touches (a : Address) (d d' : Disk) : Prop :=
  ∀ b, d'.rowsAt b = d.rowsAt b ∨
    (∃ ending ∈ companions, b = beside a ending) ∧ d'.rowsAt b = Table.empty

namespace Touches

variable {a : Address} {d d' d'' : Disk}

lemma refl (a : Address) (d : Disk) : Touches a d d := fun _ => Or.inl rfl

lemma of_eq (h : ∀ b, d'.rowsAt b = d.rowsAt b) : Touches a d d' := fun b => Or.inl (h b)

lemma trans (h : Touches a d d') (h' : Touches a d' d'') : Touches a d d'' := by
  intro b
  rcases h' b with heq | hempty
  · rw [heq]
    exact h b
  · exact Or.inr hempty

/-- The database itself keeps its rows. -/
lemma rowsAt_self (h : Touches a d d') : d'.rowsAt a = d.rowsAt a := by
  rcases h a with heq | ⟨⟨ending, hending, ha⟩, -⟩
  · exact heq
  · exact absurd ha.symm (beside_ne_self a (ne_empty_of_mem_companions hending))

end Touches

lemma touches_erase (d : Disk) (a : Address) {ending : String} (h : ending ∈ companions) :
    Touches a d (d.erase (beside a ending)) := by
  intro b
  rw [rowsAt_erase d b (beside_ne_nil a ending)]
  split
  · rename_i hb
    exact Or.inr ⟨⟨ending, h, hb⟩, rfl⟩
  · exact Or.inl rfl

lemma touches_put (d : Disk) (a : Address) {ending : String} (h : ending ∈ companions)
    (content : Bytes) : Touches a d (d.put (beside a ending) (.file content)) := by
  intro b
  rw [rowsAt_put d _ b (beside_ne_nil a ending)]
  split
  · rename_i hb
    exact Or.inr ⟨⟨ending, h, hb⟩, rfl⟩
  · exact Or.inl rfl

/-! ## Steps -/

/-- What a step on the database at an address is to do, given the rows that are there: touch only
what it may, and return what is wanted if it does not fail.  The rows are there afterwards too, so
nothing need be said about them. -/
def Meets {α : Type} (a : Address) (rows : Snapshot) (x : Step α) (Q : α → Prop) : Prop :=
  ∀ d : Disk, d.rowsAt a = rows →
    Touches a d (x.run.run d).2 ∧ ∀ v, (x.run.run d).1 = .ok v → Q v

namespace Meets

variable {α β : Type} {a : Address} {rows : Snapshot} {Q Q' : α → Prop} {R : β → Prop}

lemma pure {v : α} (h : Q v) : Meets a rows (Pure.pure v) Q := fun d _ =>
  ⟨.refl a d, fun _ hv => Except.ok.inj hv ▸ h⟩

lemma throw (e : Failure) : Meets a rows (MonadExcept.throw e : Step α) Q := fun d _ =>
  ⟨.refl a d, fun _ hv => by cases hv⟩

lemma bind {x : Step α} {f : α → Step β} (hx : Meets a rows x Q)
    (hf : ∀ v, Q v → Meets a rows (f v) R) : Meets a rows (x >>= f) R := by
  intro d hd
  obtain ⟨htouches, hvalue⟩ := hx d hd
  rw [ExceptT.run_bind, StateT.run_bind]
  generalize x.run.run d = left at htouches hvalue ⊢
  obtain ⟨result, d'⟩ := left
  cases result with
  | ok v =>
    obtain ⟨htouches', hvalue'⟩ := hf v (hvalue v rfl) d' (htouches.rowsAt_self.trans hd)
    exact ⟨htouches.trans htouches', hvalue'⟩
  | error e => exact ⟨htouches, fun v hv => by cases hv⟩

lemma weaken {x : Step α} (hx : Meets a rows x Q) (h : ∀ v, Q v → Q' v) : Meets a rows x Q' :=
  fun d hd => ⟨(hx d hd).1, fun v hv => h v ((hx d hd).2 v hv)⟩

/-- Looking at the disk shows the rows. -/
lemma get {f : Disk → Step β} (h : ∀ d : Disk, d.rowsAt a = rows → Meets a rows (f d) R) :
    Meets a rows (MonadState.get >>= f) R := fun d hd => h d hd d hd

lemma change {f : Disk → Disk} (h : ∀ d : Disk, d.rowsAt a = rows → Touches a d (f d)) :
    Meets a rows (modify f : Step PUnit) fun _ => True := fun d hd =>
  ⟨h d hd, fun _ _ => trivial⟩

end Meets

/-- The rows of an index in what was found in a file. -/
def Content.rows : Content → Snapshot
  | .database content => content.index.getD Table.empty
  | _ => Table.empty

lemma Content.rows_of_ofNode? {n : Node} {content : Content}
    (h : Content.ofNode? n = some content) :
    content.rows = n.rows := by
  unfold Content.ofNode? at h
  split at h
  · cases h
  · rw [← Option.some.inj h]
    rfl
  · rw [← Option.some.inj h]
    rfl
  · rw [← Option.some.inj h]
    rfl

variable {a : Address} {rows : Snapshot}

lemma meets_putNode {n : Node} (h : n.rows = rows) :
    Meets a rows (putNode a n) fun _ => True :=
  .change fun _ hd => .of_eq (rowsAt_put_of_eq (h.trans hd.symm))

lemma meets_putBeside {ending : String} (h : ending ∈ companions) (content : Bytes) :
    Meets a rows (putNode (beside a ending) (.file content)) fun _ => True :=
  .change fun d _ => touches_put d a h content

lemma meets_eraseBeside {ending : String} (h : ending ∈ companions) :
    Meets a rows (eraseBeside a ending) fun _ => True :=
  .change fun d _ => touches_erase d a h

lemma meets_touchBeside {ending : String} (h : ending ∈ companions) (content : Bytes) :
    Meets a rows (touchBeside a ending content) fun _ => True :=
  .change fun d _ => by
    split
    · exact .refl a d
    · exact touches_put d a h content

lemma meets_demand (condition : Bool) :
    Meets a rows (demand condition) fun _ => condition = true := by
  unfold demand
  split
  · rename_i h
    exact .pure h
  · exact .throw _

lemma meets_findLike (access : Access) : Meets a rows (findLike access) fun _ => True := by
  unfold findLike
  split
  · exact .get fun _ _ => .weaken (meets_demand _) fun _ _ => trivial
  · exact .pure trivial

/-- What is found in a file has its rows. -/
lemma meets_findFile (access : Access) :
    Meets a rows (findFile a access) fun found => found.rows = rows := by
  unfold findFile
  refine .get fun d hd => ?_
  split
  · rename_i node hnode
    split
    · rename_i content hcontent
      refine .pure ?_
      rw [Content.rows_of_ofNode? hcontent, ← hd, rowsAt_of_node? hnode]
    · exact .throw _
  · rename_i hnone
    have absent : Table.empty = rows := (rowsAt_of_node?_eq_none hnone).symm.trans hd
    exact .bind (meets_demand _) fun _ _ =>
      .bind (meets_putNode absent) fun _ _ => .pure absent

lemma meets_lock (access : Access) : Meets a rows (lock a access) fun _ => True := by
  unfold lock
  split
  · exact .get fun _ _ => .weaken (meets_demand _) fun _ _ => trivial
  · exact .pure trivial

lemma meets_undoJournal (access : Access) (isEmpty : Bool) :
    Meets a rows (undoJournal a access isEmpty) fun _ => True := by
  unfold undoJournal
  split
  · exact .pure trivial
  · refine .get fun _ _ => ?_
    split
    · exact .pure trivial
    · split
      · split
        · exact meets_eraseBeside (by decide)
        · exact .pure trivial
      · split
        · exact .throw _
        · split
          · exact .bind (meets_demand _) fun _ _ => meets_eraseBeside (by decide)
          · exact .pure trivial

lemma meets_continueLog (access : Access) (isEmpty : Bool) :
    Meets a rows (continueLog a access isEmpty) fun _ => True := by
  unfold continueLog
  refine .get fun _ _ => ?_
  split
  · exact .pure trivial
  · refine .bind (meets_demand _) fun _ _ => ?_
    split
    · exact .bind (meets_eraseBeside (by decide)) fun _ _ => .pure trivial
    · exact .bind (meets_demand _) fun _ _ => .pure trivial

lemma meets_leaveLogIndex (access : Access) :
    Meets a rows (leaveLogIndex a access) fun _ => True := by
  unfold leaveLogIndex
  split
  · split
    · exact meets_putBeside (by decide) _
    · exact meets_eraseBeside (by decide)
  · exact .pure trivial

lemma meets_leaveLog (access : Access) (isLogged : Bool) :
    Meets a rows (leaveLog a access isLogged) fun _ => True := by
  unfold leaveLog
  split
  · refine .get fun _ _ => ?_
    split
    · exact meets_touchBeside (by decide) _
    · split
      · exact .bind (meets_touchBeside (by decide) _) fun _ _ => meets_leaveLogIndex access
      · exact .bind (meets_eraseBeside (by decide)) fun _ _ => meets_leaveLogIndex access
  · exact .pure trivial

/-! ## Opening -/

lemma index_addTo (part : Part) (content : Database) :
    (part.addTo content).index.getD Table.empty = content.index.getD Table.empty := by
  cases part <;> rfl

lemma companions_of_tracesOf {layer : Layer} {isChanged : Bool} {trace : String × Bytes}
    (h : trace ∈ tracesOf layer isChanged) : trace.1 ∈ companions := by
  cases layer <;> simp only [tracesOf, List.mem_cons, List.not_mem_nil, or_false] at h
  · rcases h with rfl | rfl <;> simp [companions]
  · subst h
    simp [companions]

/-- An open database is in the file at an address, and has its rows; what lies beside it while it
is open are companions. -/
structure Opened.IsOf (o : Opened) (a : Address) (rows : Snapshot) : Prop where
  /-- It is in the file. -/
  address : o.address = some a
  /-- It has the rows. -/
  index : o.index = rows
  /-- Nothing but companions lies beside it. -/
  traces : ∀ trace ∈ o.traces, trace.1 ∈ companions

lemma meets_prepare (access : Access) (part : Part) (h : rows = Table.empty) :
    Meets a rows (prepare a access part) fun o => o.IsOf a rows := by
  subst h
  unfold prepare
  refine .get fun _ _ => .bind (meets_demand _) fun _ _ => ?_
  refine .bind (meets_eraseBeside (by decide)) fun _ _ => .bind (meets_putNode rfl) fun _ _ => ?_
  refine .get fun _ _ => .bind (meets_leaveLog access _) fun _ _ => ?_
  refine .bind (meets_demand _) fun _ _ => .bind (meets_putNode (index_addTo part _)) fun _ _ => ?_
  exact .pure ⟨rfl, index_addTo part _, fun _ => companions_of_tracesOf⟩

lemma meets_keepLog (access : Access) {content : Database} (inLog : Bool)
    (h : content.index.getD Table.empty = rows) :
    Meets a rows (keepLog a access content inLog) fun content' =>
      content'.index.getD Table.empty = rows := by
  unfold keepLog
  split
  · refine .get fun _ _ => .bind (meets_demand _) fun _ _ => ?_
    refine .bind (meets_eraseBeside (by decide)) fun _ _ => ?_
    exact .bind (meets_putNode h) fun _ _ => .pure h
  · exact .pure h

lemma meets_complete (access : Access) (part : Part) {content : Database} (isSealed : Bool)
    (h : content.index.getD Table.empty = rows) :
    Meets a rows (complete a access part content isSealed) fun _ => True := by
  have added : (Node.database (part.addTo content)).rows = rows :=
    (index_addTo part content).trans h
  unfold complete
  split
  · exact .pure trivial
  · split
    · exact meets_putNode added
    · exact .bind (meets_eraseBeside (by decide)) fun _ _ => meets_putNode added

lemma meets_enterDatabase (access : Access) (part : Part) {content : Database} (inLog : Bool)
    (h : content.index.getD Table.empty = rows) :
    Meets a rows (enterDatabase a access part content inLog) fun o => o.IsOf a rows := by
  unfold enterDatabase
  refine .bind (meets_demand _) fun _ _ => ?_
  refine .bind (meets_keepLog access inLog h) fun content' h' => .get fun d _ => ?_
  refine .bind (meets_complete access part _ h') fun _ _ => ?_
  refine .bind (meets_leaveLog access _) fun _ _ => .bind (meets_demand _) fun _ _ => ?_
  exact .pure ⟨rfl, (index_addTo part _).trans h', fun _ => companions_of_tracesOf⟩

lemma meets_openFixed (part : Part) {found : Content} (h : found.rows = rows) :
    Meets a rows (openFixed a part found) fun o => o.IsOf a rows := by
  unfold openFixed
  split
  · exact .bind (meets_demand _) fun _ _ => .pure ⟨rfl, h, fun _ ht => by cases ht⟩
  · exact .throw _

lemma meets_enterFound (access : Access) (part : Part) (inLog : Bool) {found : Content}
    (h : found.rows = rows) :
    Meets a rows (enterFound a access part inLog found) fun o => o.IsOf a rows := by
  cases found with
  | empty => exact meets_prepare access part h.symm
  | foreign => exact .bind (meets_leaveLog access _) fun _ _ => .throw _
  | database content => exact meets_enterDatabase access part inLog h

lemma meets_openShared (access : Access) (part : Part) {found : Content} (h : found.rows = rows) :
    Meets a rows (openShared a access part found) fun o => o.IsOf a rows := by
  unfold openShared
  refine .bind (meets_lock access) fun _ _ => .bind (meets_undoJournal access _) fun _ _ => ?_
  exact .bind (meets_continueLog access _) fun inLog _ => meets_enterFound access part inLog h

/-- Opening the database in a file does only what it may, and what is opened has the rows that are
in the file. -/
lemma meets_openFile (access : Access) (part : Part) :
    Meets a rows (openFile a access part) fun o => o.IsOf a rows := by
  unfold openFile
  refine .bind (meets_findLike access) fun _ _ => .bind (meets_findFile access) fun found h => ?_
  split
  · exact meets_openFixed part h
  · exact meets_openShared access part h

/-! ## Whole operations -/

section Operations

variable {d d' d'' : Disk}

/-- Whether a disk differs from another one only in that some files beside others have lost their
rows. -/
def Leaves (d d' : Disk) : Prop :=
  ∀ b, d'.rowsAt b = d.rowsAt b ∨ IsBeside b ∧ d'.rowsAt b = Table.empty

lemma Leaves.refl (d : Disk) : Leaves d d := fun _ => Or.inl rfl

lemma Leaves.of_eq (h : ∀ b, d'.rowsAt b = d.rowsAt b) : Leaves d d' := fun b => Or.inl (h b)

lemma Leaves.trans (h : Leaves d d') (h' : Leaves d' d'') : Leaves d d'' := by
  intro b
  rcases h' b with heq | hempty
  · rw [heq]
    exact h b
  · exact Or.inr hempty

lemma Touches.leaves (h : Touches a d d') : Leaves d d' := by
  intro b
  rcases h b with heq | ⟨⟨ending, hending, hb⟩, hempty⟩
  · exact Or.inl heq
  · exact Or.inr ⟨⟨a, ending, hending, hb⟩, hempty⟩

lemma rowsAt_makeAlong (d : Disk) (a : Address) (names : List String) (b : Address) :
    (d.makeAlong a names).2.rowsAt b = d.rowsAt b := by
  induction names generalizing d a with
  | nil => rfl
  | cons name rest ih =>
    unfold makeAlong
    dsimp only
    split
    · exact ih d _
    · rfl
    · rename_i hnone
      split
      · rfl
      · rw [ih]
        have absent : Node.directory.rows = d.rowsAt (child a name) :=
          (rowsAt_of_node?_eq_none hnone).symm
        exact rowsAt_put_of_eq absent b

lemma rowsAt_makeParent (d : Disk) (p : Path) (b : Address) :
    (d.makeParent p).2.rowsAt b = d.rowsAt b := by
  unfold makeParent
  split
  · rfl
  · split
    · rfl
    · exact rowsAt_makeAlong d _ _ b

/-- Making a file where there is none changes no table. -/
lemma leaves_touch {p : Path} (h : d.touch p = .ok d') : Leaves d d' := by
  unfold touch at h
  cases haddress : d.fileAddress p with
  | error e =>
    rw [haddress] at h
    cases h
  | ok a =>
    rw [haddress] at h
    rw [← Except.ok.inj h]
    refine .of_eq fun b => ?_
    dsimp only
    split
    · rfl
    · rename_i hnone
      rw [Bool.not_eq_true, Option.isSome_eq_false_iff, Option.isNone_iff_eq_none] at hnone
      have absent : (Node.file []).rows = d.rowsAt a := (rowsAt_of_node?_eq_none hnone).symm
      exact rowsAt_put_of_eq absent b

/-- An open database has the rows that are in its file, or none if it is in memory; what lies
beside it while it is open are companions. -/
structure Opened.Fits (o : Opened) (d : Disk) : Prop where
  /-- It has the rows. -/
  index : o.index = o.address.elim Table.empty d.rowsAt
  /-- Nothing but companions lies beside it. -/
  traces : ∀ trace ∈ o.traces, trace.1 ∈ companions

/-- Opening a database changes no table, but for those in files beside others, and what is opened
has the rows that are in the file. -/
theorem openDatabase_spec (d : Disk) (p : Path) (part : Part) :
    Leaves d (d.openDatabase p part).2 ∧
      ∀ o, (d.openDatabase p part).1 = .ok o → o.Fits (d.openDatabase p part).2 := by
  have made := rowsAt_makeParent d p
  unfold openDatabase
  split
  · rename_i d₁ hd₁
    rw [hd₁] at made
    exact ⟨.of_eq made, fun o ho => by cases ho⟩
  · rename_i d₁ hd₁
    rw [hd₁] at made
    split
    · exact ⟨.of_eq made, fun o ho => by cases ho⟩
    · refine ⟨.of_eq made, fun o ho => ?_⟩
      obtain rfl := Except.ok.inj ho
      exact ⟨rfl, fun _ ht => by cases ht⟩
    · split
      · exact ⟨.of_eq made, fun o ho => by cases ho⟩
      · rename_i a ha
        -- what was opened has the rows from before, and these are in the file still
        obtain ⟨htouches, hopened⟩ := meets_openFile (a := a) _ part d₁ rfl
        refine ⟨(Leaves.of_eq made).trans htouches.leaves, fun o ho => ?_⟩
        have isOf := hopened o ho
        refine ⟨?_, isOf.traces⟩
        rw [isOf.index, isOf.address]
        exact htouches.rowsAt_self.symm

lemma leaves_breakOff {o : Opened} (h : ∀ trace ∈ o.traces, trace.1 ∈ companions) (d : Disk) :
    Leaves d (d.breakOff o) := by
  unfold breakOff
  split
  · exact .refl d
  · rename_i a _
    revert h
    generalize o.traces = traces
    intro h
    induction traces generalizing d with
    | nil => exact .refl d
    | cons trace rest ih =>
      obtain ⟨htrace, hrest⟩ := List.forall_mem_cons.1 h
      exact (touches_put d a htrace trace.2).leaves.trans (ih _ hrest)

/-- What is saved is put into the file, and only files beside it are touched after that. -/
lemma touches_save {o : Opened} (h : o.address = some a) (isChanged : Bool)
    (change : Database → Database) :
    Touches a (d.put a (.database (change (d.databaseAt a)))) (d.save o isChanged change) := by
  unfold save
  rw [h]
  dsimp only
  split
  · exact touches_erase _ a (by decide)
  · exact .refl a _

lemma save_of_address_eq_none {o : Opened} (h : o.address = none) (isChanged : Bool)
    (change : Database → Database) : d.save o isChanged change = d := by
  unfold save
  rw [h]

lemma leaves_saveStore (d : Disk) (o : Opened) (store : PagedStore) :
    Leaves d (d.saveStore o store) := by
  cases h : o.address with
  | none =>
    rw [saveStore, save_of_address_eq_none h]
    exact .refl d
  | some a =>
    have same : (Node.database { d.databaseAt a with store := some store }).rows = d.rowsAt a := rfl
    exact (Leaves.of_eq (rowsAt_put_of_eq same)).trans (touches_save h _ _).leaves

end Operations

end Disk

end ShardIndex
