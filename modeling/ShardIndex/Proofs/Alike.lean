import ShardIndex.Proofs.Separation

/-!
# Disks that differ in one file

Two disks are alike but for the file at an address if they have the same nodes everywhere else,
and there two databases with whatever contents, or the same other file, or no file (`AlikeBut`).
Paths lead to the same addresses on such disks.

What works on a database elsewhere cannot tell them apart: it comes to the same result on both and
leaves them alike (`Ignores`).  As what was at the address is there still, this says that the file
is neither read nor written, and that none is made where there was none.  All steps of opening are
of this kind unless the address is that of the database or of something that is looked for beside
it, and so is opening as a whole (`AlikeBut.openDatabase`).
-/

namespace ShardIndex.Disk

/-- What two disks have at an address. -/
inductive Held
  | databases (content content' : Database)
  /-- A file that is no database, the same on both. -/
  | bytes (content : Bytes)
  /-- Nothing, or a directory. -/
  | noFile

/-- Whether two disks that have some nodes at an address have what was said. -/
def Held.By : Held → Option Node → Option Node → Prop
  | .databases content content', found, found' =>
    found = some (.database content) ∧ found' = some (.database content')
  | .bytes content, found, found' => found = some (.file content) ∧ found' = some (.file content)
  | .noFile, found, found' => found' = found ∧ ∀ n, found = some n → n = .directory

/-- Whether two disks, both used in some directory, differ at most in what is in the file at an
address. -/
structure AlikeBut (cur b : Address) (held : Held) (d d' : Disk) : Prop where
  /-- The one is used in the directory. -/
  current : d.current = cur
  /-- The other is used there, too. -/
  current' : d'.current = cur
  /-- They have the same nodes everywhere else. -/
  node?_eq : ∀ a, a ≠ b → d'.node? a = d.node? a
  /-- They have what was said at the address. -/
  held : held.By (d.node? b) (d'.node? b)

/-- Whether two runs, each of which began on one of two disks, have come to the same result and
have left disks that differ at most in one file. -/
structure Agree {α : Type} (cur b : Address) (held : Held) (r r' : α × Disk) : Prop where
  /-- The results are the same. -/
  result : r'.1 = r.1
  /-- The disks are alike. -/
  disks : AlikeBut cur b held r.2 r'.2

/-- Two runs that agree are a result with two disks. -/
lemma Agree.exists_eq {α : Type} {cur b : Address} {held : Held} {r r' : α × Disk}
    (h : Agree cur b held r r') :
    ∃ v d d', r = (v, d) ∧ r' = (v, d') ∧ AlikeBut cur b held d d' :=
  ⟨r.1, r.2, r'.2, rfl, Prod.ext h.result rfl, h.disks⟩

/-! ## Nodes -/

namespace AlikeBut

variable {a b cur : Address} {held : Held} {d d' : Disk}

/-- Every disk is like itself. -/
lemma exists_refl (b : Address) (d : Disk) : ∃ held, AlikeBut d.current b held d d := by
  have same (held : Held) (h : held.By (d.node? b) (d.node? b)) :
      AlikeBut d.current b held d d :=
    ⟨rfl, rfl, fun _ _ => rfl, h⟩
  cases h : d.node? b with
  | none => exact ⟨.noFile, same _ (h ▸ ⟨rfl, fun n hn => by cases hn⟩)⟩
  | some n =>
    cases n with
    | directory => exact ⟨.noFile, same _ (h ▸ ⟨rfl, fun n hn => (Option.some.inj hn).symm⟩)⟩
    | file content => exact ⟨.bytes content, same _ (h ▸ ⟨rfl, rfl⟩)⟩
    | database content => exact ⟨.databases content content, same _ (h ▸ ⟨rfl, rfl⟩)⟩

/-- What is at the address on disks that are alike for the same reason is the same file, or no
file. -/
lemma node?_eq_or {e e' : Disk} (h : AlikeBut cur b held d d') (he : AlikeBut cur b held e e') :
    e.node? b = d.node? b ∨ ∀ n, d.node? b = some n ∨ e.node? b = some n → n = .directory := by
  have before := h.held
  have after := he.held
  cases held with
  | databases content content' => exact Or.inl (after.1.trans before.1.symm)
  | bytes content => exact Or.inl (after.1.trans before.1.symm)
  | noFile => exact Or.inr fun n hn => hn.elim (before.2 n) (after.2 n)

lemma put (h : AlikeBut cur b held d d') (ha : a ≠ b) (n : Node) :
    AlikeBut cur b held (d.put a n) (d'.put a n) := by
  by_cases hroot : a = []
  · subst hroot
    refine ⟨h.current, h.current', fun c hc => ?_, ?_⟩
    · rw [node?_put_nil, node?_put_nil, h.node?_eq c hc]
    · rw [node?_put_nil, node?_put_nil]
      exact h.held
  · refine ⟨h.current, h.current', fun c hc => ?_, ?_⟩
    · rw [node?_put d n c hroot, node?_put d' n c hroot, h.node?_eq c hc]
    · rw [node?_put d n b hroot, node?_put d' n b hroot, if_neg ha.symm, if_neg ha.symm]
      exact h.held

lemma erase (h : AlikeBut cur b held d d') (ha : a ≠ b) (hroot : a ≠ []) :
    AlikeBut cur b held (d.erase a) (d'.erase a) := by
  refine ⟨h.current, h.current', fun c hc => ?_, ?_⟩
  · rw [node?_erase d c hroot, node?_erase d' c hroot, h.node?_eq c hc]
  · rw [node?_erase d b hroot, node?_erase d' b hroot, if_neg ha.symm, if_neg ha.symm]
    exact h.held

/-- At any address there is the same on both disks, or two databases. -/
lemma node?_cases (h : AlikeBut cur b held d d') (a : Address) :
    d'.node? a = d.node? a ∨ ∃ content content', d.node? a = some (.database content) ∧
      d'.node? a = some (.database content') := by
  by_cases ha : a = b
  · have there := h.held
    rw [ha]
    cases held with
    | databases content content' => exact Or.inr ⟨content, content', there⟩
    | bytes content => exact Or.inl (there.2.trans there.1.symm)
    | noFile => exact Or.inl there.1
  · exact Or.inl (h.node?_eq a ha)

/-- Where there is nothing, a directory can be made on both disks. -/
lemma putDirectory (h : AlikeBut cur b held d d') (hnone : d.node? a = none) :
    AlikeBut cur b held (d.put a .directory) (d'.put a .directory) := by
  by_cases ha : a = b
  · subst ha
    have hroot : a ≠ [] := by
      rintro rfl
      cases hnone
    have there := h.held
    rw [hnone] at there
    cases held with
    | databases content content' => cases there.1
    | bytes content => cases there.1
    | noFile =>
      refine ⟨h.current, h.current', fun c hc => ?_, ?_⟩
      · rw [node?_put d _ c hroot, node?_put d' _ c hroot, h.node?_eq c hc]
      · rw [node?_put d _ a hroot, node?_put d' _ a hroot, if_pos rfl, if_pos rfl]
        exact ⟨rfl, fun n hn => (Option.some.inj hn).symm⟩
  · exact h.put ha _

/-! ## Ways -/

/-- Whether anything is at an address is the same on both disks. -/
lemma isSome_node? (h : AlikeBut cur b held d d') (a : Address) :
    (d'.node? a).isSome = (d.node? a).isSome := by
  rcases h.node?_cases a with heq | ⟨content, content', hd, hd'⟩
  · rw [heq]
  · rw [hd, hd']
    rfl

lemma enter_eq (h : AlikeBut cur b held d d') (a : Address) : d'.enter a = d.enter a := by
  rw [enter, enter]
  rcases h.node?_cases a with heq | ⟨content, content', hd, hd'⟩
  · rw [heq]
  · rw [hd, hd']

lemma origin_eq (h : AlikeBut cur b held d d') (p : Path) : d'.origin p = d.origin p := by
  rw [origin, origin, h.current, h.current']

lemma walk_eq (h : AlikeBut cur b held d d') (a : Address) (names : List String) :
    d'.walk a names = d.walk a names := by
  induction names generalizing a with
  | nil => rfl
  | cons name rest ih => simp only [walk, h.enter_eq, ih]

/-- Paths lead to the same addresses. -/
lemma locate_eq (h : AlikeBut cur b held d d') (p : Path) : d'.locate p = d.locate p := by
  rw [locate, locate, h.origin_eq, h.walk_eq]

lemma pathExists_eq (h : AlikeBut cur b held d d') (p : Path) :
    d'.pathExists p = d.pathExists p := by
  rw [pathExists, pathExists, h.locate_eq]
  cases d.locate p with
  | error e => rfl
  | ok a => exact h.isSome_node? a

/-- No file shows a difference when it is read as bytes. -/
lemma readBytes_eq (h : AlikeBut cur b held d d') (p : Path) : d'.readBytes p = d.readBytes p := by
  rw [readBytes, readBytes, h.locate_eq]
  cases d.locate p with
  | error e => rfl
  | ok a =>
    rcases h.node?_cases a with heq | ⟨content, content', hd, hd'⟩
    · simp only [bind, Except.bind, heq]
    · simp only [bind, Except.bind, hd, hd']

lemma admits_eq (h : AlikeBut cur b held d d') (a : Address) (name : String) :
    d'.admits a name = d.admits a name := by
  rw [admits, admits, h.enter_eq]

lemma follow_eq (h : AlikeBut cur b held d d') (a : Address) (names : List String) :
    d'.follow a names = d.follow a names := by
  induction names generalizing a with
  | nil => rfl
  | cons name rest ih => simp only [follow, h.admits_eq, ih]

lemma fileOf?_eq (h : AlikeBut cur b held d d') (p : Path) : d'.fileOf? p = d.fileOf? p := by
  simp only [fileOf?, h.origin_eq, h.follow_eq, h.enter_eq]

/-- Directories are made alike. -/
lemma makeAlong (h : AlikeBut cur b held d d') (a : Address) (names : List String) :
    Agree cur b held (d.makeAlong a names) (d'.makeAlong a names) := by
  induction names generalizing d d' a with
  | nil => exact ⟨rfl, h⟩
  | cons name rest ih =>
    rw [Disk.makeAlong, Disk.makeAlong]
    rcases h.node?_cases (child a name) with heq | ⟨content, content', hd, hd'⟩
    · rw [heq]
      cases hnode : d.node? (child a name) with
      | none =>
        dsimp only
        split
        · exact ⟨rfl, h⟩
        · exact ih (h.putDirectory hnode) _
      | some n =>
        cases n with
        | directory => exact ih h _
        | file content => exact ⟨rfl, h⟩
        | database content => exact ⟨rfl, h⟩
    · rw [hd, hd']
      exact ⟨rfl, h⟩

lemma makeParent (h : AlikeBut cur b held d d') (p : Path) :
    Agree cur b held (d.makeParent p) (d'.makeParent p) := by
  unfold Disk.makeParent
  split
  · exact ⟨rfl, h⟩
  · split
    · exact ⟨rfl, h⟩
    · rw [h.origin_eq]
      exact h.makeAlong _ _

end AlikeBut

/-! ## Steps -/

/-- Whether a step cannot tell disks apart that differ in the file at an address, and leaves that
file alone. -/
def Ignores {α : Type} (cur b : Address) (held : Held) (x : Step α) : Prop :=
  ∀ d d' : Disk, AlikeBut cur b held d d' → Agree cur b held (x.run.run d) (x.run.run d')

namespace Ignores

variable {α β : Type} {b cur : Address} {held : Held}

lemma pure (v : α) : Ignores cur b held (Pure.pure v) := fun _ _ h => ⟨rfl, h⟩

lemma throw (e : Failure) : Ignores cur b held (MonadExcept.throw e : Step α) :=
  fun _ _ h => ⟨rfl, h⟩

lemma bind {x : Step α} {f : α → Step β} (hx : Ignores cur b held x)
    (hf : ∀ v, Ignores cur b held (f v)) : Ignores cur b held (x >>= f) := by
  intro d d' h
  obtain ⟨result, d₁, d₁', hd, hd', hdisks⟩ := (hx d d' h).exists_eq
  rw [ExceptT.run_bind, StateT.run_bind, StateT.run_bind, hd, hd']
  cases result with
  | ok v => exact hf v d₁ d₁' hdisks
  | error e => exact ⟨rfl, hdisks⟩

/-- Looking at the disk, if it shows the same on both. -/
lemma get {f : Disk → Step β} (hshown : ∀ d d' : Disk, AlikeBut cur b held d d' → f d' = f d)
    (hf : ∀ d : Disk, Ignores cur b held (f d)) : Ignores cur b held (MonadState.get >>= f) := by
  intro d d' h
  have after : Agree cur b held ((f d).run.run d) ((f d').run.run d') := by
    rw [hshown d d' h]
    exact hf d d d' h
  exact after

lemma change {f : Disk → Disk}
    (h : ∀ d d' : Disk, AlikeBut cur b held d d' → AlikeBut cur b held (f d) (f d')) :
    Ignores cur b held (modify f : Step PUnit) := fun d d' halike => ⟨rfl, h d d' halike⟩

end Ignores

section Steps

variable {a b cur : Address} {held : Held} (ha : a ≠ b) (hb : ¬ IsNear b)

include hb in
lemma beside_ne {ending : String} (h : ending ∈ neighbours) : beside a ending ≠ b :=
  fun heq => hb ⟨a, ending, h, heq.symm⟩

namespace AlikeBut

variable {d d' : Disk} (h : AlikeBut cur b held d d')

include h hb in
lemma node?_beside {ending : String} (hending : ending ∈ neighbours) :
    d'.node? (beside a ending) = d.node? (beside a ending) :=
  h.node?_eq _ (beside_ne hb hending)

include h hb in
lemma hasRoom_eq {ending : String} (hending : ending ∈ neighbours) :
    d'.hasRoom a ending = d.hasRoom a ending := by
  rw [hasRoom, hasRoom, h.node?_beside hb hending]

include h hb in
lemma lacksLogIndex_eq (access : Access) :
    d'.lacksLogIndex a access = d.lacksLogIndex a access := by
  rw [lacksLogIndex, lacksLogIndex, h.node?_beside hb (by decide)]

include h hb in
lemma isSealed_eq (access : Access) : d'.isSealed a access = d.isSealed a access := by
  rw [isSealed, isSealed, h.lacksLogIndex_eq hb]

end AlikeBut

include ha in
lemma ignores_putNode (n : Node) : Ignores cur b held (putNode a n) :=
  .change fun _ _ h => h.put ha n

include hb in
lemma ignores_eraseBeside {ending : String} (h : ending ∈ neighbours) :
    Ignores cur b held (eraseBeside a ending) :=
  .change fun _ _ halike => halike.erase (beside_ne hb h) (beside_ne_nil a ending)

include hb in
lemma ignores_touchBeside {ending : String} (h : ending ∈ neighbours) (content : Bytes) :
    Ignores cur b held (touchBeside a ending content) := by
  refine .change fun d d' halike => ?_
  rw [halike.node?_beside hb h]
  split
  · exact halike
  · exact halike.put (beside_ne hb h) _

lemma ignores_demand (condition : Bool) : Ignores cur b held (demand condition) := by
  unfold demand
  split
  · exact .pure _
  · exact .throw _

lemma ignores_findLike (access : Access) : Ignores cur b held (findLike access) := by
  unfold findLike
  split
  · exact .get (fun _ _ h => by rw [h.pathExists_eq]) fun _ => ignores_demand _
  · exact .pure _

include ha in
lemma ignores_findFile (access : Access) : Ignores cur b held (findFile a access) := by
  unfold findFile
  refine .get (fun _ _ h => by rw [h.node?_eq a ha]) fun d => ?_
  split
  · split
    · exact .pure _
    · exact .throw _
  · exact .bind (ignores_demand _) fun _ => .bind (ignores_putNode ha _) fun _ => .pure _

include hb in
lemma ignores_lock (access : Access) : Ignores cur b held (lock a access) := by
  unfold lock
  split
  · refine .get (fun _ _ h => ?_) fun _ => ignores_demand _
    rw [h.hasRoom_eq hb (by decide), h.node?_beside hb (by decide)]
  · exact .pure _

include hb in
lemma ignores_undoJournal (access : Access) (isEmpty : Bool) :
    Ignores cur b held (undoJournal a access isEmpty) := by
  unfold undoJournal
  split
  · exact .pure _
  · refine .get (fun _ _ h => by rw [h.node?_beside hb (by decide)]) fun _ => ?_
    split
    · exact .pure _
    · split
      · split
        · exact ignores_eraseBeside hb (by decide)
        · exact .pure _
      · split
        · exact .throw _
        · split
          · exact .bind (ignores_demand _) fun _ => ignores_eraseBeside hb (by decide)
          · exact .pure _

include hb in
lemma ignores_continueLog (access : Access) (isEmpty : Bool) :
    Ignores cur b held (continueLog a access isEmpty) := by
  unfold continueLog
  refine .get (fun _ _ h => by rw [h.node?_beside hb (by decide)]) fun _ => ?_
  split
  · exact .pure _
  · refine .bind (ignores_demand _) fun _ => ?_
    split
    · exact .bind (ignores_eraseBeside hb (by decide)) fun _ => .pure _
    · exact .bind (ignores_demand _) fun _ => .pure _

include hb in
lemma ignores_leaveLogIndex (access : Access) : Ignores cur b held (leaveLogIndex a access) := by
  unfold leaveLogIndex
  split
  · split
    · exact ignores_putNode (beside_ne hb (by decide)) _
    · exact ignores_eraseBeside hb (by decide)
  · exact .pure _

include hb in
lemma ignores_leaveLog (access : Access) (isLogged : Bool) :
    Ignores cur b held (leaveLog a access isLogged) := by
  unfold leaveLog
  split
  · refine .get (fun _ _ h => by rw [h.lacksLogIndex_eq hb]) fun _ => ?_
    split
    · exact ignores_touchBeside hb (by decide) _
    · split
      · exact .bind (ignores_touchBeside hb (by decide) _) fun _ => ignores_leaveLogIndex hb access
      · exact .bind (ignores_eraseBeside hb (by decide)) fun _ => ignores_leaveLogIndex hb access
  · exact .pure _

/-! ## Opening -/

include ha hb in
lemma ignores_prepare (access : Access) (part : Part) :
    Ignores cur b held (prepare a access part) := by
  unfold prepare
  refine .get (fun _ _ h => by rw [h.hasRoom_eq hb (by decide)]) fun _ => ?_
  refine .bind (ignores_demand _) fun _ => .bind (ignores_eraseBeside hb (by decide)) fun _ => ?_
  refine .bind (ignores_putNode ha _) fun _ => ?_
  refine .get (fun _ _ h => by rw [h.lacksLogIndex_eq hb]) fun _ => ?_
  refine .bind (ignores_leaveLog hb access _) fun _ => .bind (ignores_demand _) fun _ => ?_
  exact .bind (ignores_putNode ha _) fun _ => .pure _

include ha hb in
lemma ignores_keepLog (access : Access) (content : Database) (inLog : Bool) :
    Ignores cur b held (keepLog a access content inLog) := by
  unfold keepLog
  split
  · refine .get (fun _ _ h => by rw [h.hasRoom_eq hb (by decide)]) fun _ => ?_
    refine .bind (ignores_demand _) fun _ => .bind (ignores_eraseBeside hb (by decide)) fun _ => ?_
    exact .bind (ignores_putNode ha _) fun _ => .pure _
  · exact .pure _

include ha hb in
lemma ignores_complete (access : Access) (part : Part) (content : Database) (isSealed : Bool) :
    Ignores cur b held (complete a access part content isSealed) := by
  unfold complete
  split
  · exact .pure _
  · split
    · exact ignores_putNode ha _
    · exact .bind (ignores_eraseBeside hb (by decide)) fun _ => ignores_putNode ha _

include ha hb in
lemma ignores_enterDatabase (access : Access) (part : Part) (content : Database) (inLog : Bool) :
    Ignores cur b held (enterDatabase a access part content inLog) := by
  unfold enterDatabase
  refine .bind (ignores_demand _) fun _ => ?_
  refine .bind (ignores_keepLog ha hb access content inLog) fun content' => ?_
  refine .get (fun _ _ h => by rw [h.isSealed_eq hb]) fun _ => ?_
  refine .bind (ignores_complete ha hb access part _ _) fun _ => ?_
  refine .bind (ignores_leaveLog hb access _) fun _ => .bind (ignores_demand _) fun _ => ?_
  exact .pure _

lemma ignores_openFixed (part : Part) (found : Content) :
    Ignores cur b held (openFixed a part found) := by
  unfold openFixed
  split
  · exact .bind (ignores_demand _) fun _ => .pure _
  · exact .throw _

include ha hb in
lemma ignores_enterFound (access : Access) (part : Part) (inLog : Bool) (found : Content) :
    Ignores cur b held (enterFound a access part inLog found) := by
  cases found with
  | empty => exact ignores_prepare ha hb access part
  | foreign => exact .bind (ignores_leaveLog hb access _) fun _ => .throw _
  | database content => exact ignores_enterDatabase ha hb access part content inLog

include ha hb in
lemma ignores_openShared (access : Access) (part : Part) (found : Content) :
    Ignores cur b held (openShared a access part found) := by
  unfold openShared
  refine .bind (ignores_lock hb access) fun _ => ?_
  refine .bind (ignores_undoJournal hb access _) fun _ => ?_
  refine .bind (ignores_continueLog hb access _) fun inLog => ?_
  exact ignores_enterFound ha hb access part inLog found

include ha hb in
/-- Opening the database in a file ignores every other file that is not looked for beside one. -/
lemma ignores_openFile (access : Access) (part : Part) :
    Ignores cur b held (openFile a access part) := by
  unfold openFile
  refine .bind (ignores_findLike access) fun _ => ?_
  refine .bind (ignores_findFile ha access) fun found => ?_
  split
  · exact ignores_openFixed part found
  · exact ignores_openShared ha hb access part found

end Steps

/-! ## Whole operations -/

lemma current_makeAlong (d : Disk) (a : Address) (names : List String) :
    (d.makeAlong a names).2.current = d.current := by
  induction names generalizing d a with
  | nil => rfl
  | cons name rest ih =>
    unfold makeAlong
    dsimp only
    split
    · exact ih d _
    · rfl
    · split
      · rfl
      · exact ih _ _

lemma current_makeParent (d : Disk) (p : Path) : (d.makeParent p).2.current = d.current := by
  unfold makeParent
  split
  · rfl
  · split
    · rfl
    · exact current_makeAlong d _ _

/-- What is opened is in memory, or at the place to which its name leads. -/
lemma address_of_openDatabase {d : Disk} {p : Path} {part : Part} {o : Opened}
    (h : (d.openDatabase p part).1 = .ok o) {a : Address} (ha : o.address = some a) :
    ∃ file access, Locator.ofPath? p = some (.file file access) ∧ a = d.place file := by
  have hcurrent := current_makeParent d p
  unfold openDatabase at h
  split at h
  · cases h
  · rename_i d₁ hd₁
    rw [hd₁] at hcurrent
    split at h
    · cases h
    · obtain rfl := Except.ok.inj h
      cases ha
    · rename_i file access hlocator
      split at h
      · cases h
      · rename_i c hc
        have isOf := (meets_openFile (a := c) access part d₁ rfl).2 o h
        obtain rfl : a = c := Option.some.inj (ha.symm.trans isOf.address)
        refine ⟨file, access, hlocator, ?_⟩
        rw [eq_place_of_fileOf? hc, place_of_current hcurrent]

namespace AlikeBut

variable {b cur : Address} {held : Held} {d d' : Disk}

/-- Opening a database ignores a file that is elsewhere and is not looked for beside one. -/
theorem openDatabase (h : AlikeBut cur b held d d') (hb : ¬ IsNear b) {p : Path}
    (hp : ∀ file access, Locator.ofPath? p = some (.file file access) → d.place file ≠ b)
    (part : Part) : Agree cur b held (d.openDatabase p part) (d'.openDatabase p part) := by
  obtain ⟨result, d₁, d₁', hd, hd', hdisks⟩ := (h.makeParent p).exists_eq
  rw [Disk.openDatabase, Disk.openDatabase, hd, hd']
  cases result with
  | error e => exact ⟨rfl, hdisks⟩
  | ok parent =>
    cases hlocator : Locator.ofPath? p with
    | none => exact ⟨rfl, hdisks⟩
    | some locator =>
      cases locator with
      | memory => exact ⟨rfl, hdisks⟩
      | file file access =>
        have same : d₁'.fileOf? file = d₁.fileOf? file := hdisks.fileOf?_eq file
        cases hfile : d₁.fileOf? file with
        | none =>
          dsimp only
          rw [same, hfile]
          exact ⟨rfl, hdisks⟩
        | some a =>
          have ha : a ≠ b := by
            rw [eq_place_of_fileOf? hfile, place_of_current (hdisks.current.trans h.current.symm)]
            exact hp file access hlocator
          dsimp only
          rw [same, hfile]
          exact ignores_openFile ha hb access part d₁ d₁' hdisks

lemma breakOff (h : AlikeBut cur b held d d') (hb : ¬ IsNear b) {o : Opened}
    (htraces : ∀ trace ∈ o.traces, trace.1 ∈ companions) :
    AlikeBut cur b held (d.breakOff o) (d'.breakOff o) := by
  rw [Disk.breakOff, Disk.breakOff]
  cases o.address with
  | none => exact h
  | some a =>
    dsimp only
    revert htraces
    generalize o.traces = traces
    intro htraces
    induction traces generalizing d d' with
    | nil => exact h
    | cons trace rest ih =>
      obtain ⟨htrace, hrest⟩ := List.forall_mem_cons.1 htraces
      exact ih (h.put (beside_ne hb (List.mem_append_left _ htrace)) _) hrest

lemma save (h : AlikeBut cur b held d d') (hb : ¬ IsNear b) {o : Opened}
    (ho : ∀ a, o.address = some a → a ≠ b) (isChanged : Bool) (change : Database → Database) :
    AlikeBut cur b held (d.save o isChanged change) (d'.save o isChanged change) := by
  rw [Disk.save, Disk.save]
  cases haddress : o.address with
  | none => exact h
  | some a =>
    have ha := ho a haddress
    have same : d'.databaseAt a = d.databaseAt a := by rw [databaseAt, databaseAt, h.node?_eq a ha]
    have saved := h.put ha (.database (change (d.databaseAt a)))
    dsimp only
    rw [same]
    split
    · exact saved.erase (beside_ne hb (by decide)) (beside_ne_nil a _)
    · exact saved

end AlikeBut

end ShardIndex.Disk
