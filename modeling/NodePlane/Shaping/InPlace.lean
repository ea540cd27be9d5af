import NodePlane.Shaping.Tc
import Mathlib.Data.List.Flatten

/-! In-place changes: on the tree built for the old classes they leave what a build for the
new ones leaves, and fail where it fails; classes in both lists are left alone. -/
namespace NodePlane
namespace Shaping
open Library

/-- Items that a device can have at once. -/
structure Kernel.Holds (kernel : Kernel) (items : List Item) : Prop where
  apart : Apart kernel.slots items
  taken : ∀ item ∈ items, kernel.takes item = true

/-- `next` is the device of `tree` with these items, in some order. -/
structure Has (tree next : Tree) (items : List Item) : Prop where
  root : next.root = tree.root
  ingress : next.ingress = tree.ingress
  items : next.items.Perm items

/-- The commands leave these items if the device can have them, and fail if it cannot. -/
structure Makes (kernel : Kernel) (commands : List Command) (tree : Tree) (items : List Item) :
    Prop where
  made : kernel.Holds items → ∃ next, kernel.run commands tree = some next ∧ Has tree next items
  failed : ¬kernel.Holds items → kernel.run commands tree = none

section
variable {kernel : Kernel} {tree next last : Tree} {items others : List Item}
  {commands more : List Command}

theorem Kernel.Holds.perm (holds : kernel.Holds items) (same : items.Perm others) :
    kernel.Holds others :=
  ⟨holds.apart.perm same, fun item held => holds.taken item (same.mem_iff.mpr held)⟩

theorem Kernel.Holds.sublist (holds : kernel.Holds others) (part : items.Sublist others) :
    kernel.Holds items :=
  ⟨holds.apart.sublist part, fun item held => holds.taken item (part.subset held)⟩

theorem Has.refl : Has tree tree tree.items := ⟨rfl, rfl, List.Perm.refl _⟩

theorem Has.trans (one : Has tree next items) (two : Has next last others) : Has tree last others :=
  ⟨two.root.trans one.root, two.ingress.trans one.ingress, two.items⟩

theorem Has.perm (has : Has tree next items) (same : items.Perm others) : Has tree next others :=
  ⟨has.root, has.ingress, has.items.trans same⟩

theorem Has.hooked (has : Has tree next items) (parent : Parent) :
    next.hooked parent = tree.hooked parent := by
  cases parent with
  | root => rw [Tree.hooked, Tree.hooked, has.root]
  | ingress => rw [Tree.hooked, Tree.hooked, has.ingress]

theorem run_append (commands more : List Command) (tree : Tree) :
    kernel.run (commands ++ more) tree = (kernel.run commands tree).bind (kernel.run more) := by
  induction commands generalizing tree with
  | nil => rfl
  | cons command rest ih =>
    rw [List.cons_append, Kernel.run, Kernel.run]
    cases kernel.step tree command with
    | none => rfl
    | some next => exact ih next

theorem Makes.perm (makes : Makes kernel commands tree items) (same : items.Perm others) :
    Makes kernel commands tree others := by
  constructor
  · intro holds
    obtain ⟨next, ran, has⟩ := makes.made (holds.perm same.symm)
    exact ⟨next, ran, has.perm same⟩
  · intro refused
    exact makes.failed fun holds => refused (holds.perm same)

theorem Makes.nothing (holds : kernel.Holds tree.items) : Makes kernel [] tree tree.items :=
  ⟨fun _ => ⟨tree, rfl, Has.refl⟩, fun refused => absurd holds refused⟩

/-- One batch after another, where the end result leaves room for the one in between. -/
theorem Makes.append (one : Makes kernel commands tree items)
    (two : ∀ next, Has tree next items → kernel.Holds items → Makes kernel more next others)
    (room : kernel.Holds others → kernel.Holds items) :
    Makes kernel (commands ++ more) tree others := by
  constructor
  · intro holds
    obtain ⟨next, ran, has⟩ := one.made (room holds)
    obtain ⟨last, went, had⟩ := (two next has (room holds)).made holds
    exact ⟨last, by rw [run_append, ran]; exact went, has.trans had⟩
  · intro refused
    rw [run_append]
    by_cases holds : kernel.Holds items
    · obtain ⟨next, ran, has⟩ := one.made holds
      rw [ran]
      exact (two next has holds).failed refused
    · rw [one.failed holds]
      rfl

end

/-! Single commands. -/

section
variable {kernel : Kernel} {tree : Tree} {items : List Item}

theorem slots_nodup (item : Item) : (kernel.slots item).Nodup := by
  cases item with
  | cls minor speed => exact List.nodup_singleton _
  | leaf minor => exact List.nodup_singleton _
  | filter f =>
    rw [Kernel.slots]
    cases f.select with
    | mark n => exact List.nodup_singleton _
    | destination address => simp
    | source address => simp

theorem holds_append {item : Item} :
    kernel.Holds (items ++ [item]) ↔
      kernel.Holds items ∧ kernel.takes item = true ∧
        ∀ other ∈ items, ∀ slot ∈ kernel.slots item, slot ∉ kernel.slots other := by
  constructor
  · rintro ⟨apart, taken⟩
    obtain ⟨before, -, free⟩ := apart_append_singleton.mp apart
    refine ⟨⟨before, fun other held => taken other (List.mem_append_left _ held)⟩, ?_, free⟩
    exact taken item (List.mem_append_right _ List.mem_cons_self)
  · rintro ⟨holds, takes, free⟩
    refine ⟨apart_append_singleton.mpr ⟨holds.apart, slots_nodup item, free⟩, ?_⟩
    intro other held
    rcases List.mem_append.mp held with held | held
    · exact holds.taken other held
    · rw [List.mem_singleton.mp held]
      exact takes

/-- A command that adds an item, once what the item needs is there. -/
theorem makes_add (holds : kernel.Holds tree.items) {command : Command} {item : Item}
    (adds : kernel.step tree command = kernel.add item tree) :
    Makes kernel [command] tree (tree.items ++ [item]) := by
  have ran : kernel.run [command] tree = kernel.add item tree := by
    rw [Kernel.run, adds]
    cases kernel.add item tree <;> rfl
  constructor
  · intro fits
    obtain ⟨-, takes, free⟩ := holds_append.mp fits
    refine ⟨{ tree with items := tree.items ++ [item] }, ?_, rfl, rfl, List.Perm.refl _⟩
    rw [ran, Kernel.add, if_pos ⟨takes, free⟩]
  · intro refused
    rw [ran, Kernel.add, if_neg]
    rintro ⟨takes, free⟩
    exact refused (holds_append.mpr ⟨holds, takes, free⟩)

theorem makes_filters (list : List Filter) (holds : kernel.Holds tree.items)
    (hooked : ∀ f ∈ list, tree.hooked f.action.parent = true) :
    Makes kernel (list.map Command.addFilter) tree (tree.items ++ list.map Item.filter) := by
  induction list generalizing tree with
  | nil => simpa using Makes.nothing holds
  | cons f rest ih =>
    have one : Makes kernel [.addFilter f] tree (tree.items ++ [.filter f]) := by
      refine makes_add holds ?_
      rw [Kernel.step, hooked f List.mem_cons_self, if_pos rfl]
    show Makes kernel ([.addFilter f] ++ rest.map Command.addFilter) tree _
    refine one.append ?_ ?_
    · intro next has held
      have later := ih (held.perm has.items.symm) fun g member => by
        rw [has.hooked]
        exact hooked g (List.mem_cons_of_mem f member)
      refine later.perm ?_
      rw [List.map_cons, List.append_cons]
      exact has.items.append_right _
    · intro all
      refine all.sublist (List.Sublist.append_left ?_ _)
      exact List.singleton_sublist.mpr List.mem_cons_self

end

/-- What one class puts on the device: itself and its leaf where there are classes, and its
filters. -/
def Class.items (filters : Filters) (classes : Bool) (c : Class) : List Item :=
  (if classes then [.cls c.minor (.kbit c.kbit), .leaf c.minor] else []) ++
    (filters.of c).map Item.filter

/-- The commands that put it there. -/
def Class.build (filters : Filters) (classes : Bool) (c : Class) : List Command :=
  if classes then addClass c else filters.add c

/-- Classes come with filters on the root, and the hook of the filters is there. -/
structure Suits (filters : Filters) (classes : Bool) (tree : Tree) : Prop where
  classify : classes = true → filters = .classify
  hooked : tree.hooked filters.parent = true

theorem of_parent {filters : Filters} {c : Class} {f : Filter} (held : f ∈ filters.of c) :
    f.action.parent = filters.parent := by
  obtain ⟨_, -, rfl⟩ := List.mem_map.mp held
  cases filters <;> rfl

section
variable {kernel : Kernel} {filters : Filters} {classes : Bool} {tree next : Tree}
  {items rest : List Item}

theorem Has.suits (has : Has tree next items) (suits : Suits filters classes tree) :
    Suits filters classes next :=
  ⟨suits.classify, by rw [has.hooked]; exact suits.hooked⟩

theorem isClass_mem {minor : ℕ} {speed : Speed} (held : Item.cls minor speed ∈ items) :
    items.any (Kernel.isClass minor) = true :=
  List.any_eq_true.mpr ⟨_, held, by simp [Kernel.isClass]⟩

theorem makes_build (c : Class) (suits : Suits filters classes tree)
    (holds : kernel.Holds tree.items) :
    Makes kernel (c.build filters classes) tree (tree.items ++ c.items filters classes) := by
  have finish : ∀ {next : Tree}, Has tree next next.items → kernel.Holds next.items →
      Makes kernel (filters.add c) next (next.items ++ (filters.of c).map Item.filter) := by
    intro next has held
    refine makes_filters _ held fun f member => ?_
    rw [of_parent member, has.hooked, suits.hooked]
  cases classes with
  | false => exact finish Has.refl holds
  | true =>
    have root := suits.classify rfl
    subst root
    have hooked : tree.root.isSome = true := suits.hooked
    show Makes kernel (([.addClass c.minor (.kbit c.kbit)] ++ [.addLeaf c.minor]) ++
      Filters.classify.add c) tree _
    have one : Makes kernel [.addClass c.minor (.kbit c.kbit)] tree
        (tree.items ++ [.cls c.minor (.kbit c.kbit)]) := by
      refine makes_add holds ?_
      rw [Kernel.step, hooked, if_pos rfl]
    have two : Makes kernel ([.addClass c.minor (.kbit c.kbit)] ++ [.addLeaf c.minor]) tree
        (tree.items ++ [.cls c.minor (.kbit c.kbit), .leaf c.minor]) := by
      refine one.append ?_ ?_
      · intro next has held
        have there : next.items.any (Kernel.isClass c.minor) = true :=
          isClass_mem (has.items.mem_iff.mpr (List.mem_append_right _ List.mem_cons_self))
        have leaf : Makes kernel [.addLeaf c.minor] next (next.items ++ [.leaf c.minor]) := by
          refine makes_add (held.perm has.items.symm) ?_
          rw [Kernel.step, there, if_pos rfl]
        refine leaf.perm ((has.items.append_right _).trans ?_)
        rw [List.append_assoc]
        rfl
      · intro all
        exact all.sublist (List.Sublist.append_left (by simp) _)
    refine two.append ?_ ?_
    · intro next has held
      refine (finish ⟨has.root, has.ingress, List.Perm.refl _⟩ (held.perm has.items.symm)).perm ?_
      rw [Class.items, if_pos rfl, ← List.append_assoc]
      exact has.items.append_right _
    · intro all
      refine all.sublist (List.Sublist.append_left ?_ _)
      rw [Class.items, if_pos rfl]
      exact List.sublist_append_left _ _

theorem makes_builds (list : List Class) (suits : Suits filters classes tree)
    (holds : kernel.Holds tree.items) :
    Makes kernel (list.flatMap (Class.build filters classes)) tree
      (tree.items ++ list.flatMap (Class.items filters classes)) := by
  induction list generalizing tree with
  | nil => simpa using Makes.nothing holds
  | cons c rest ih =>
    rw [List.flatMap_cons, List.flatMap_cons]
    refine (makes_build c suits holds).append ?_ ?_
    · intro next has held
      refine (ih (has.suits suits) (held.perm has.items.symm)).perm ?_
      rw [← List.append_assoc]
      exact has.items.append_right _
    · intro all
      exact all.sublist (List.Sublist.append_left (List.sublist_append_left _ _) _)

/-- A rate changes where it is. -/
theorem makes_change {minor kbit : ℕ} {speed : Speed} (holds : kernel.Holds tree.items)
    (there : tree.items.Perm (.cls minor speed :: rest)) :
    Makes kernel [.changeClass minor kbit] tree (.cls minor (.kbit kbit) :: rest) := by
  have known : tree.items.any (Kernel.isClass minor) = true :=
    isClass_mem (there.mem_iff.mpr List.mem_cons_self)
  have others : ∀ item ∈ rest, Kernel.isClass minor item = false := by
    intro item held
    by_contra class_too
    rw [Bool.not_eq_false] at class_too
    have apart := List.nodup_append.mp (holds.perm there).apart
    refine apart.2.2 (.minor minor) (by simp [Kernel.slots]) (.minor minor) ?_ rfl
    refine List.mem_flatMap.mpr ⟨item, held, ?_⟩
    cases item with
    | cls m speed => simp [Kernel.slots, show m = minor by simpa [Kernel.isClass] using class_too]
    | leaf m => cases class_too
    | filter f => cases class_too
  have paces : (tree.items.map (Kernel.paced minor kbit)).Perm (.cls minor (.kbit kbit) :: rest) := by
    refine (there.map _).trans ?_
    have same : rest.map (Kernel.paced minor kbit) = rest := by
      refine (List.map_congr_left fun item held => ?_).trans (List.map_id rest)
      rw [Kernel.paced, others item held, if_neg Bool.false_ne_true, id]
    rw [List.map_cons, same]
    simp [Kernel.paced, Kernel.isClass]
  have ran : kernel.run [.changeClass minor kbit] tree = if kernel.rates kbit then
      some { tree with items := tree.items.map (Kernel.paced minor kbit) } else none := by
    rw [Kernel.run, Kernel.step, known, Bool.true_and]
    cases kernel.rates kbit <;> rfl
  constructor
  · intro fits
    have rate : kernel.rates kbit = true := fits.taken (.cls minor (.kbit kbit)) List.mem_cons_self
    refine ⟨{ tree with items := tree.items.map (Kernel.paced minor kbit) }, ?_, rfl, rfl, paces⟩
    rw [ran, if_pos rate]
  · intro refused
    rw [ran, if_neg]
    intro rate
    refine refused ⟨(holds.perm there).apart, ?_⟩
    intro item held
    rcases List.mem_cons.mp held with rfl | held
    · exact rate
    · exact (holds.perm there).taken item (List.mem_cons_of_mem _ held)

/-- A command that always leaves the items. -/
theorem makes_always {command : Command} {left : List Item} (holds : kernel.Holds items)
    (ran : kernel.step tree command = some { tree with items := left }) (same : left.Perm items) :
    Makes kernel [command] tree items := by
  constructor
  · intro _
    refine ⟨{ tree with items := left }, ?_, rfl, rfl, same⟩
    rw [Kernel.run, ran]
    rfl
  · exact fun refused => absurd holds refused

theorem makes_delete {parent : Parent} (list : List Filter)
    (placed : ∀ f ∈ list, f.action.parent = parent) (holds : kernel.Holds tree.items)
    (there : tree.items.Perm (list.map Item.filter ++ rest)) :
    Makes kernel (list.map fun f => .deleteFilter parent f.key) tree rest := by
  induction list generalizing tree with
  | nil => exact (Makes.nothing holds).perm there
  | cons f later ih =>
    have kept := holds.perm there
    rw [List.map_cons, List.cons_append] at there kept
    have fewer := kept.sublist (List.sublist_cons_self _ _)
    have here : Kernel.isFilter parent f.key (.filter f) = true := by
      simp [Kernel.isFilter, placed f List.mem_cons_self]
    have others : ∀ item ∈ later.map Item.filter ++ rest,
        Kernel.isFilter parent f.key item = false := by
      intro item held
      by_contra filter_too
      rw [Bool.not_eq_false] at filter_too
      have apart := List.nodup_append.mp kept.apart
      refine apart.2.2 (.key parent f.key) ?_ (.key parent f.key) ?_ rfl
      · simp [Kernel.slots, placed f List.mem_cons_self]
      · refine List.mem_flatMap.mpr ⟨item, held, ?_⟩
        cases item with
        | cls m speed => cases filter_too
        | leaf m => cases filter_too
        | filter g =>
          have same : g.action.parent = parent ∧ g.key = f.key := by
            simpa [Kernel.isFilter] using filter_too
          simp [Kernel.slots, same.1, same.2]
    have one : Makes kernel [.deleteFilter parent f.key] tree (later.map Item.filter ++ rest) := by
      have known : tree.items.any (Kernel.isFilter parent f.key) = true :=
        List.any_eq_true.mpr ⟨_, there.mem_iff.mpr List.mem_cons_self, here⟩
      refine makes_always fewer (by rw [Kernel.step, known, if_pos rfl]) ?_
      refine (there.filter _).trans ?_
      rw [List.filter_cons_of_neg (by simp [here]), List.filter_eq_self.mpr]
      intro item held
      rw [others item held]
      rfl
    show Makes kernel ([.deleteFilter parent f.key] ++
      later.map fun f => .deleteFilter parent f.key) tree rest
    refine one.append ?_ fun _ => fewer
    intro next has held
    exact ih (fun g member => placed g (List.mem_cons_of_mem f member)) (held.perm has.items.symm)
      has.items

theorem makes_deleteClass {minor : ℕ} {speed : Speed} (holds : kernel.Holds tree.items)
    (there : tree.items.Perm (.cls minor speed :: .leaf minor :: rest))
    (idle : ∀ item ∈ rest, Kernel.feeds minor item = false) :
    Makes kernel [.deleteClass minor] tree rest := by
  have kept := holds.perm there
  have known : tree.items.any (Kernel.isClass minor) = true :=
    isClass_mem (there.mem_iff.mpr List.mem_cons_self)
  have unfed : tree.items.any (Kernel.feeds minor) = false := by
    rw [there.any_eq]
    simpa [Kernel.feeds] using idle
  have others : ∀ item ∈ rest, Kernel.belongs minor item = false := by
    intro item held
    by_contra belongs
    rw [Bool.not_eq_false] at belongs
    have apart := List.nodup_append.mp kept.apart
    cases item with
    | cls m s =>
      have same : m = minor := by simpa [Kernel.belongs] using belongs
      subst same
      refine apart.2.2 (.minor m) (by simp [Kernel.slots]) (.minor m) ?_ rfl
      exact List.mem_flatMap.mpr ⟨.cls m s, List.mem_cons_of_mem _ held, List.mem_singleton_self _⟩
    | leaf m =>
      have same : m = minor := by simpa [Kernel.belongs] using belongs
      subst same
      have leaves := List.nodup_append.mp (kept.sublist (List.sublist_cons_self _ _)).apart
      refine leaves.2.2 (.leaf m) (by simp [Kernel.slots]) (.leaf m) ?_ rfl
      exact List.mem_flatMap.mpr ⟨.leaf m, held, List.mem_singleton_self _⟩
    | filter f => cases belongs
  refine makes_always (kept.sublist ((List.sublist_cons_self _ _).trans (List.sublist_cons_self _ _)))
    (by rw [Kernel.step, known, unfed]; rfl) ?_
  refine (there.filter _).trans ?_
  have dropped : (Item.cls minor speed :: Item.leaf minor :: rest).filter
      (fun item => !Kernel.belongs minor item) = rest := by
    rw [List.filter_cons_of_neg (by simp [Kernel.belongs]),
      List.filter_cons_of_neg (by simp [Kernel.belongs]), List.filter_eq_self]
    intro item held
    rw [others item held]
    rfl
  rw [dropped]

end

/-! The two halves of a change. -/

section
variable (filters : Filters) (classes : Bool)

/-- What the removals leave of class `c` for its successor. -/
def carried (c next : Class) : List Item :=
  (if classes then [.cls c.minor (.kbit c.kbit), .leaf c.minor] else []) ++
    if next.selectors ≠ c.selectors then [] else (filters.of c).map Item.filter

/-- What they leave of an old class. -/
def stays (new : List Class) (c : Class) : List Item :=
  ((findKey Class.minor new c.minor).map (carried filters classes c)).getD []

/-- What a new class finds of its predecessor. -/
def found (old : List Class) (next : Class) : List Item :=
  ((findKey Class.minor old next.minor).map fun c => carried filters classes c next).getD []

end

section
variable {kernel : Kernel} {filters : Filters} {classes : Bool} {tree : Tree} {base : List Item}
  {old new : List Class} {c next : Class}

theorem carried_sublist : (carried filters classes c next).Sublist (c.items filters classes) := by
  refine List.Sublist.append_left ?_ _
  split
  · exact List.nil_sublist _
  · exact List.Sublist.refl _

theorem stays_sublist : (stays filters classes new c).Sublist (c.items filters classes) := by
  rw [stays]
  cases findKey Class.minor new c.minor with
  | none => exact List.nil_sublist _
  | some next => exact carried_sublist

/-- A class is kept busy by its own filters only. -/
theorem feeds_minor {item : Item} (held : item ∈ c.items filters classes) {minor : ℕ}
    (busy : Kernel.feeds minor item = true) : minor = c.minor := by
  cases item with
  | cls m speed => cases busy
  | leaf m => cases busy
  | filter f =>
    have member : f ∈ filters.of c := by
      rcases List.mem_append.mp held with plain | listed
      · split at plain <;> simp at plain
      · simpa using listed
    obtain ⟨_, -, rfl⟩ := List.mem_map.mp member
    cases filters with
    | classify =>
      have same : c.minor = minor := by simpa [Kernel.feeds, Filters.action] using busy
      exact same.symm
    | redirect ifb => simp [Kernel.feeds, Filters.action] at busy

/-- One class of the old list, before some rest. -/
theorem makes_removal {rest : List Item} (holds : kernel.Holds tree.items)
    (there : tree.items.Perm (c.items filters classes ++ rest))
    (idle : classes = true → ∀ item ∈ rest, Kernel.feeds c.minor item = false) :
    Makes kernel (removal filters classes new c) tree (stays filters classes new c ++ rest) := by
  have deletes : ∀ {left : List Item}, tree.items.Perm ((filters.of c).map Item.filter ++ left) →
      Makes kernel (filters.delete c) tree left :=
    fun placed => makes_delete (filters.of c) (fun f held => of_parent held) holds placed
  rw [removal, stays]
  cases findKey Class.minor new c.minor with
  | none =>
    cases classes with
    | false =>
      show Makes kernel (filters.delete c ++ []) tree rest
      rw [List.append_nil]
      exact deletes there
    | true =>
      have gone : Makes kernel (filters.delete c) tree
          (.cls c.minor (.kbit c.kbit) :: .leaf c.minor :: rest) := by
        refine deletes (there.trans ?_)
        rw [Class.items, if_pos rfl, List.append_assoc]
        exact List.perm_append_comm_assoc _ _ _
      refine gone.append ?_ fun _ => ?_
      · intro next has held
        exact makes_deleteClass (held.perm has.items.symm) has.items (idle rfl)
      · refine (holds.perm there).sublist ?_
        exact (List.sublist_append_left [Item.cls c.minor (.kbit c.kbit), .leaf c.minor] _).append_right
          rest
  | some next =>
    show Makes kernel (if next.selectors ≠ c.selectors then filters.delete c else []) tree
      (carried filters classes c next ++ rest)
    rw [carried]
    split
    · refine deletes (there.trans ?_)
      rw [Class.items, List.append_nil, List.append_assoc]
      exact List.perm_append_comm_assoc _ _ _
    · exact (Makes.nothing holds).perm there

theorem makes_removals (holds : kernel.Holds tree.items) (distinct : (old.map Class.minor).Nodup)
    (there : tree.items.Perm (base ++ old.flatMap (Class.items filters classes)))
    (idle : classes = true → ∀ item ∈ base, ∀ c ∈ old, Kernel.feeds c.minor item = false) :
    Makes kernel (old.flatMap (removal filters classes new)) tree
      (base ++ old.flatMap (stays filters classes new)) := by
  induction old generalizing tree base with
  | nil => exact (Makes.nothing holds).perm there
  | cons c rest ih =>
    rw [List.map_cons, List.nodup_cons] at distinct
    rw [List.flatMap_cons] at there
    rw [List.flatMap_cons, List.flatMap_cons]
    have one : Makes kernel (removal filters classes new c) tree
        (stays filters classes new c ++ (base ++ rest.flatMap (Class.items filters classes))) := by
      refine makes_removal holds (there.trans (List.perm_append_comm_assoc _ _ _)) ?_
      intro classed item held
      rcases List.mem_append.mp held with held | held
      · exact idle classed item held c List.mem_cons_self
      · obtain ⟨d, member, listed⟩ := List.mem_flatMap.mp held
        by_contra busy
        rw [Bool.not_eq_false] at busy
        apply distinct.1
        rw [feeds_minor listed busy]
        exact List.mem_map_of_mem member
    refine one.append ?_ ?_
    · intro next has held
      have later := @ih _ (base ++ stays filters classes new c) (held.perm has.items.symm)
        distinct.2 ?_ ?_
      · refine later.perm ?_
        rw [List.append_assoc]
      · refine has.items.trans ?_
        rw [List.append_assoc]
        exact List.perm_append_comm_assoc _ _ _
      · intro classed item held d member
        rcases List.mem_append.mp held with held | held
        · exact idle classed item held d (List.mem_cons_of_mem _ member)
        · by_contra busy
          rw [Bool.not_eq_false] at busy
          apply distinct.1
          rw [← feeds_minor (stays_sublist.subset held) busy]
          exact List.mem_map_of_mem member
    · intro _
      refine (holds.perm (there.trans (List.perm_append_comm_assoc _ _ _))).sublist ?_
      exact List.Sublist.append_right stays_sublist _

end

section
variable {kernel : Kernel} {filters : Filters} {classes : Bool} {tree : Tree} {base : List Item}
  {old new : List Class} {c next : Class}

theorem of_alike (minor : c.minor = next.minor) (selectors : c.selectors = next.selectors) :
    filters.of c = filters.of next := by
  cases filters <;> simp [Filters.of, Filters.action, Class.filters, minor, selectors]

/-- What a class finds takes no slot that it would not take itself. -/
theorem found_slots : ((found filters classes old c).flatMap kernel.slots).Sublist
    ((c.items filters classes).flatMap kernel.slots) := by
  rw [found]
  cases search : findKey Class.minor old c.minor with
  | none => exact List.nil_sublist _
  | some previous =>
    have same : previous.minor = c.minor := (findKey_some search).2
    show ((carried filters classes previous c).flatMap kernel.slots).Sublist _
    rw [carried, Class.items, List.flatMap_append, List.flatMap_append]
    refine List.Sublist.append ?_ ?_
    · rw [same]
      split
      · exact List.Sublist.refl _
      · exact List.Sublist.refl _
    · split
      · exact List.nil_sublist _
      next equal =>
        rw [not_not] at equal
        rw [of_alike same equal.symm]

/-- Room for the new classes is room for what is left of the old ones. -/
theorem found_holds (rest : List Class) (holds : kernel.Holds tree.items)
    (there : ∀ item ∈ rest.flatMap (found filters classes old), item ∈ tree.items)
    (fits : kernel.Holds (base ++ rest.flatMap (Class.items filters classes))) :
    kernel.Holds (base ++ rest.flatMap (found filters classes old)) := by
  constructor
  · have slots : ((rest.flatMap (found filters classes old)).flatMap kernel.slots).Sublist
        ((rest.flatMap (Class.items filters classes)).flatMap kernel.slots) := by
      rw [List.flatMap_assoc, List.flatMap_assoc]
      exact List.Sublist.flatMap_right rest fun _ _ => found_slots
    have apart := fits.apart
    rw [Apart, List.flatMap_append] at apart ⊢
    exact apart.sublist (List.Sublist.append_left slots _)
  · intro item held
    rcases List.mem_append.mp held with held | held
    · exact fits.taken item (List.mem_append_left _ held)
    · exact holds.taken item (there item held)

/-- One class of the new list, before some rest. -/
theorem makes_addition {rest : List Item} (suits : Suits filters classes tree)
    (holds : kernel.Holds tree.items)
    (there : tree.items.Perm (found filters classes old c ++ rest)) :
    Makes kernel (addition filters classes old c) tree (c.items filters classes ++ rest) := by
  rw [addition]
  rw [found] at there
  cases search : findKey Class.minor old c.minor with
  | none =>
    rw [search] at there
    have same : tree.items.Perm rest := there
    exact (makes_build c suits holds).perm ((same.append_right _).trans List.perm_append_comm)
  | some previous =>
    have minor : previous.minor = c.minor := (findKey_some search).2
    rw [search] at there
    have start : tree.items.Perm (carried filters classes previous c ++ rest) := there
    show Makes kernel ((if classes ∧ previous.kbit ≠ c.kbit then [.changeClass c.minor c.kbit] else [])
      ++ if previous.selectors ≠ c.selectors then filters.add c else []) tree _
    have paced : Makes kernel
        (if classes ∧ previous.kbit ≠ c.kbit then [.changeClass c.minor c.kbit] else []) tree
        ((if classes then [Item.cls c.minor (.kbit c.kbit), .leaf c.minor] else []) ++
          ((if c.selectors ≠ previous.selectors then [] else (filters.of previous).map Item.filter) ++
            rest)) := by
      rw [carried, List.append_assoc, minor] at start
      split
      next changes =>
        obtain ⟨rated, -⟩ := changes
        rw [rated, if_pos rfl] at start
        rw [rated, if_pos rfl]
        exact makes_change holds start
      next equal =>
        refine (Makes.nothing holds).perm (start.trans ?_)
        cases classes with
        | false => exact List.Perm.refl _
        | true =>
          have rate : previous.kbit = c.kbit := by simpa using equal
          rw [rate]
    refine paced.append ?_ ?_
    · intro next has held
      split
      next differ =>
        have filled := makes_filters (filters.of c) (held.perm has.items.symm) fun f member => by
          rw [of_parent member]
          exact (has.suits suits).hooked
        refine filled.perm ((has.items.append_right _).trans ?_)
        rw [if_pos (Ne.symm differ), Class.items, List.nil_append, List.append_assoc,
          List.append_assoc]
        exact List.Perm.append_left _ List.perm_append_comm
      next equal =>
        rw [not_not] at equal
        refine (Makes.nothing (held.perm has.items.symm)).perm (has.items.trans ?_)
        rw [if_neg (not_not.mpr equal.symm), of_alike minor equal, Class.items, List.append_assoc]
    · intro fits
      refine fits.sublist ?_
      rw [Class.items, List.append_assoc]
      refine List.Sublist.append_left (List.Sublist.append_right ?_ _) _
      split
      · exact List.nil_sublist _
      next equal =>
        rw [not_not] at equal
        rw [of_alike minor equal.symm]

end

section
variable {kernel : Kernel} {filters : Filters} {classes : Bool} {tree : Tree} {base : List Item}
  {old new : List Class}

theorem makes_additions (suits : Suits filters classes tree) (holds : kernel.Holds tree.items)
    (there : tree.items.Perm (base ++ new.flatMap (found filters classes old))) :
    Makes kernel (new.flatMap (addition filters classes old)) tree
      (base ++ new.flatMap (Class.items filters classes)) := by
  induction new generalizing tree base with
  | nil => exact (Makes.nothing holds).perm there
  | cons c rest ih =>
    rw [List.flatMap_cons] at there
    rw [List.flatMap_cons, List.flatMap_cons]
    have one := makes_addition suits holds (there.trans (List.perm_append_comm_assoc _ _ _))
    have left : ∀ item ∈ rest.flatMap (found filters classes old), item ∈ tree.items :=
      fun item held => there.mem_iff.mpr
        (List.mem_append_right _ (List.mem_append_right _ held))
    refine one.append ?_ ?_
    · intro next has held
      have later := @ih _ (base ++ c.items filters classes) (has.suits suits)
        (held.perm has.items.symm) ?_
      · refine later.perm ?_
        rw [List.append_assoc]
      · refine has.items.trans ?_
        rw [List.append_assoc]
        exact List.perm_append_comm_assoc _ _ _
    · intro fits
      rw [← List.append_assoc] at fits
      have room := found_holds rest holds left fits
      rw [List.append_assoc] at room
      exact room.perm (List.perm_append_comm_assoc _ _ _)

/-- The changes make what a build on the same base makes. -/
theorem makes_changes (suits : Suits filters classes tree) (holds : kernel.Holds tree.items)
    (first : (old.map Class.minor).Nodup) (second : (new.map Class.minor).Nodup)
    (there : tree.items.Perm (base ++ old.flatMap (Class.items filters classes)))
    (idle : classes = true → ∀ item ∈ base, ∀ c ∈ old, Kernel.feeds c.minor item = false) :
    Makes kernel (changes filters classes old new) tree
      (base ++ new.flatMap (Class.items filters classes)) := by
  have removals := @makes_removals _ filters classes _ _ _ new holds first there idle
  have paired := flatMap_findKey_perm old new first second (carried filters classes)
  refine (removals.perm (List.Perm.append_left base paired)).append ?_ ?_
  · intro next has held
    exact makes_additions (has.suits suits) (held.perm has.items.symm) has.items
  · intro _
    refine (holds.perm there).sublist ?_ |>.perm (List.Perm.append_left base paired)
    exact List.Sublist.append_left (List.Sublist.flatMap_right old fun _ _ => stays_sublist) base

end

/-! A device built for the old classes. -/

/-- Both batches fail, or both leave the same root, hook and items. -/
def Agree : Option Tree → Option Tree → Prop
  | some tree, some next => Has tree next tree.items
  | none, none => True
  | _, _ => False

theorem Makes.agree {kernel : Kernel} {commands more : List Command} {tree next : Tree}
    {items : List Item} (one : Makes kernel commands tree items) (two : Makes kernel more next items)
    (root : tree.root = next.root) (ingress : tree.ingress = next.ingress) :
    Agree (kernel.run commands tree) (kernel.run more next) := by
  by_cases holds : kernel.Holds items
  · obtain ⟨left, ran, has⟩ := one.made holds
    obtain ⟨right, went, had⟩ := two.made holds
    rw [ran, went]
    refine ⟨?_, ?_, had.items.trans has.items.symm⟩
    · rw [had.root, has.root, root]
    · rw [had.ingress, has.ingress, ingress]
  · rw [one.failed holds, two.failed holds]
    trivial

/-- A device without root qdisc, with nothing but ingress filters. -/
structure Bare (kernel : Kernel) (device : Tree) : Prop where
  root : device.root = none
  holds : kernel.Holds device.items
  filters : ∀ item ∈ device.items, ∃ f : Filter, item = .filter f ∧ f.action.parent = .ingress

/-- The device once `htb` has its root and the class for everything else. -/
def rooted (device : Tree) : Tree :=
  { device with
    root := some defaultClass
    items := device.items ++ [.cls defaultClass .unlimited] }

/-- The command changes the class, its leaf or one of its filters. -/
def Command.Touches (c : Class) : Command → Prop
  | .addRoot _ => True
  | .addClass minor _ | .changeClass minor _ | .deleteClass minor | .addLeaf minor => minor = c.minor
  | .addFilter f => f.action = .classid c.minor
  | .deleteFilter parent key => parent = .root ∧ ∃ f ∈ Filters.classify.of c, f.key = key

section
variable {kernel : Kernel} {device tree : Tree} {old new : List Class}

theorem rooted_holds (bare : Bare kernel device) : kernel.Holds (rooted device).items := by
  refine holds_append.mpr ⟨bare.holds, rfl, ?_⟩
  intro other held slot mine theirs
  obtain ⟨f, rfl, -⟩ := bare.filters other held
  rw [Kernel.slots, List.mem_singleton] at mine
  subst mine
  rw [Kernel.slots] at theirs
  cases selected : f.select <;> simp [selected] at theirs

theorem htb_run (bare : Bare kernel device) (classes : List Class) :
    kernel.run (htb classes) device =
      kernel.run (classes.flatMap (Class.build .classify true)) (rooted device) := by
  have added : kernel.add (.cls defaultClass .unlimited)
      { device with root := some defaultClass } = some (rooted device) := by
    obtain ⟨-, takes, free⟩ := holds_append.mp (rooted_holds bare)
    rw [Kernel.add, if_pos ⟨takes, free⟩]
    rfl
  rw [htb, List.cons_append, List.cons_append, List.nil_append, Kernel.run, Kernel.step, bare.root]
  show (kernel.step { device with root := some defaultClass } _).bind _ = _
  rw [Kernel.step, Option.isSome_some, if_pos rfl, added]
  rfl

theorem rooted_suits : Suits .classify true (rooted device) := ⟨fun _ => rfl, rfl⟩

theorem rooted_idle (bare : Bare kernel device) (minor : ℕ) :
    ∀ item ∈ (rooted device).items, Kernel.feeds minor item = false := by
  intro item held
  rcases List.mem_append.mp held with held | held
  · obtain ⟨f, rfl, ingress⟩ := bare.filters item held
    rw [Kernel.feeds, decide_eq_false_iff_not]
    intro classifies
    rw [classifies] at ingress
    cases ingress
  · rw [List.mem_singleton.mp held]
    rfl

/-- What `htb` leaves, if it succeeds. -/
theorem htb_built (bare : Bare kernel device) (built : kernel.run (htb old) device = some tree) :
    kernel.Holds tree.items ∧
      Has (rooted device) tree
        ((rooted device).items ++ old.flatMap (Class.items .classify true)) := by
  rw [htb_run bare] at built
  have builds := makes_builds old (@rooted_suits device) (rooted_holds bare)
  by_cases holds : kernel.Holds ((rooted device).items ++ old.flatMap (Class.items .classify true))
  · obtain ⟨next, ran, has⟩ := builds.made holds
    rw [built] at ran
    rw [Option.some.inj ran]
    exact ⟨holds.perm has.items.symm, has⟩
  · rw [builds.failed holds] at built
    cases built

end

section
variable {kernel : Kernel} {device tree : Tree} {old new : List Class} {c d : Class}
  {command : Command}

theorem removal_commands (goes : command ∈ removal .classify true new d) :
    (∃ f ∈ Filters.classify.of d, command = .deleteFilter .root f.key) ∨
      command = .deleteClass d.minor := by
  have deletes : command ∈ Filters.classify.delete d →
      ∃ f ∈ Filters.classify.of d, command = .deleteFilter .root f.key := by
    intro held
    obtain ⟨f, member, rfl⟩ := List.mem_map.mp held
    exact ⟨f, member, rfl⟩
  rw [removal] at goes
  cases search : findKey Class.minor new d.minor with
  | none =>
    simp only [search, if_true, List.mem_append, List.mem_singleton] at goes
    exact goes.imp_left deletes
  | some next =>
    simp only [search] at goes
    split at goes
    · exact .inl (deletes goes)
    · exact absurd goes List.not_mem_nil

theorem addition_commands (comes : command ∈ addition .classify true old d) :
    (∃ f ∈ Filters.classify.of d, command = .addFilter f) ∨
      command = .addClass d.minor (.kbit d.kbit) ∨ command = .addLeaf d.minor ∨
        command = .changeClass d.minor d.kbit := by
  have adds : command ∈ Filters.classify.add d →
      ∃ f ∈ Filters.classify.of d, command = .addFilter f := by
    intro held
    obtain ⟨f, member, rfl⟩ := List.mem_map.mp held
    exact ⟨f, member, rfl⟩
  rw [addition] at comes
  cases search : findKey Class.minor old d.minor with
  | none =>
    simp only [search, if_true, addClass, List.mem_append, List.mem_cons, List.not_mem_nil,
      or_false] at comes
    rcases comes with (cls | leaf) | filter
    · exact .inr (.inl cls)
    · exact .inr (.inr (.inl leaf))
    · exact .inl (adds filter)
  | some previous =>
    simp only [search] at comes
    rcases List.mem_append.mp comes with rate | filter
    · split at rate
      · exact .inr (.inr (.inr (List.mem_singleton.mp rate)))
      · exact absurd rate List.not_mem_nil
    · split at filter
      · exact .inl (adds filter)
      · exact absurd filter List.not_mem_nil

theorem of_action {f : Filter} (held : f ∈ Filters.classify.of c) : f.action = .classid c.minor := by
  obtain ⟨_, -, rfl⟩ := List.mem_map.mp held
  rfl

theorem of_mem_items {f : Filter} (held : f ∈ Filters.classify.of c) :
    Item.filter f ∈ c.items .classify true :=
  List.mem_append_right _ (List.mem_map_of_mem held)

/-- Filters of two classes on one device never share a key. -/
theorem keys_apart (holds : kernel.Holds tree.items)
    (there : ∀ item ∈ old.flatMap (Class.items .classify true), item ∈ tree.items)
    (first : c ∈ old) (second : d ∈ old) {f g : Filter} (left : f ∈ Filters.classify.of c)
    (right : g ∈ Filters.classify.of d) (same : f.key = g.key) : c.minor = d.minor := by
  have one := there _ (List.mem_flatMap.mpr ⟨c, first, of_mem_items left⟩)
  have two := there _ (List.mem_flatMap.mpr ⟨d, second, of_mem_items right⟩)
  have shared := holds.apart.owner one two (s := .key .root f.key)
    (by simp [Kernel.slots, of_action left, FilterAction.parent])
    (by simp [Kernel.slots, of_action right, FilterAction.parent, same])
  rw [Item.filter.injEq] at shared
  have actions := of_action left
  rw [shared, of_action right, FilterAction.classid.injEq] at actions
  exact actions.symm

theorem htb_untouched (bare : Bare kernel device) (first : (old.map Class.minor).Nodup)
    (second : (new.map Class.minor).Nodup) (built : kernel.run (htb old) device = some tree)
    (was : c ∈ old) (stays : c ∈ new) : ∀ command ∈ htbChanges old new, ¬command.Touches c := by
  obtain ⟨holds, has⟩ := htb_built bare built
  have there : ∀ item ∈ old.flatMap (Class.items .classify true), item ∈ tree.items :=
    fun item held => has.items.mem_iff.mpr (List.mem_append_right _ held)
  intro command held touches
  rcases List.mem_append.mp held with goes | comes
  · obtain ⟨d, member, goes⟩ := List.mem_flatMap.mp goes
    by_cases same : d.minor = c.minor
    · have alike := List.inj_on_of_nodup_map first member was same
      subst alike
      simp [removal, findKey_of_mem second stays] at goes
    · rcases removal_commands goes with ⟨f, listed, rfl⟩ | rfl
      · obtain ⟨-, g, mine, key⟩ := touches
        exact same (keys_apart holds there member was listed mine key.symm)
      · exact same touches
  · obtain ⟨d, member, comes⟩ := List.mem_flatMap.mp comes
    by_cases same : d.minor = c.minor
    · have alike := List.inj_on_of_nodup_map second member stays same
      subst alike
      simp [addition, findKey_of_mem first was] at comes
    · rcases addition_commands comes with ⟨f, listed, rfl⟩ | rfl | rfl | rfl
      · have actions : f.action = .classid c.minor := touches
        rw [of_action listed, FilterAction.classid.injEq] at actions
        exact same actions
      · exact same touches
      · exact same touches
      · exact same touches

end

theorem htb_changes_rebuild (kernel : Kernel) (device tree : Tree) (bare : Bare kernel device)
    (old new : List Class) (first : (old.map Class.minor).Nodup)
    (second : (new.map Class.minor).Nodup) (built : kernel.run (htb old) device = some tree) :
    Agree (kernel.run (htbChanges old new) tree) (kernel.run (htb new) device) ∧
      ∀ c ∈ old, c ∈ new → ∀ command ∈ htbChanges old new, ¬command.Touches c := by
  refine ⟨?_, fun c was stays => htb_untouched bare first second built was stays⟩
  obtain ⟨holds, has⟩ := htb_built bare built
  have changed := makes_changes (has.suits rooted_suits) holds first second has.items
    fun _ item held c _ => rooted_idle bare c.minor item held
  rw [htb_run bare]
  exact changed.agree (makes_builds new rooted_suits (rooted_holds bare)) has.root has.ingress

/-- A kernel that takes every rate above 0 and reads addresses as they are. -/
def sampleKernel : Kernel := ⟨fun kbit => 0 < kbit, some⟩

/-- One class stays, one changes its rate and its address, one leaves and one comes. -/
def sampleOld : List Class :=
  [⟨1, 1000, [.destination "10.8.1.2/32"]⟩, ⟨2, 2000, [.destination "10.8.1.3/32"]⟩,
    ⟨3, 3000, [.destination "10.8.1.4/32"]⟩]

def sampleNew : List Class :=
  [⟨1, 1000, [.destination "10.8.1.2/32"]⟩, ⟨2, 5000, [.destination "10.8.1.5/32"]⟩,
    ⟨4, 4000, [.destination "10.8.1.6/32"]⟩]

theorem htb_changes_rebuild_sample :
    ∃ tree, sampleKernel.run (htb sampleOld) ⟨none, false, []⟩ = some tree ∧
      Agree (sampleKernel.run (htbChanges sampleOld sampleNew) tree)
        (sampleKernel.run (htb sampleNew) ⟨none, false, []⟩) := by
  obtain ⟨tree, built⟩ := Option.isSome_iff_exists.mp
    (show (sampleKernel.run (htb sampleOld) ⟨none, false, []⟩).isSome = true by decide)
  refine ⟨tree, built, ?_⟩
  have empty : sampleKernel.Holds [] := ⟨List.nodup_nil, fun _ held => absurd held List.not_mem_nil⟩
  exact (htb_changes_rebuild sampleKernel ⟨none, false, []⟩ tree
    ⟨rfl, empty, fun _ held => absurd held List.not_mem_nil⟩ sampleOld sampleNew (by decide)
    (by decide) built).1

/-- The same for redirected ingress packets, whatever else is on the device. -/
theorem redirect_changes_rebuild (kernel : Kernel) (device tree : Tree) (ifb : String)
    (hooked : device.ingress = true) (holds : kernel.Holds device.items) (old new : List Class)
    (first : (old.map Class.minor).Nodup) (second : (new.map Class.minor).Nodup)
    (built : kernel.run (redirectIngress ifb old) device = some tree) :
    Agree (kernel.run (redirectChanges ifb old new) tree)
      (kernel.run (redirectIngress ifb new) device) := by
  have suits : Suits (.redirect ifb) false device := ⟨Bool.noConfusion, hooked⟩
  have builds := makes_builds old suits holds
  by_cases fits : kernel.Holds (device.items ++ old.flatMap (Class.items (.redirect ifb) false))
  · obtain ⟨next, ran, has⟩ := builds.made fits
    have same : next = tree := Option.some.inj (ran.symm.trans built)
    subst same
    have changed := makes_changes (has.suits suits) (fits.perm has.items.symm) first second has.items
      Bool.noConfusion
    exact changed.agree (makes_builds new suits holds) has.root has.ingress
  · have failed := builds.failed fits
    rw [show old.flatMap (Class.build (.redirect ifb) false) = redirectIngress ifb old from rfl, built]
      at failed
    cases failed

end Shaping
end NodePlane
