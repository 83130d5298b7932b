import Blackbase.Project.Imports.Model

/-!
# What the import contexts keep apart

`sys.path` comes back exactly, however contexts nest: a directory is inserted only where it is not
on the path yet, so that removing the inserted ones again leaves what was there.  For
`sys.modules` the contexts do as much for the listed names only.  A module that a Case loads from
its own directory under any other name stays, and the next Case that imports the name is given it.
-/

namespace Blackbase.Project.Imports

variable {T : Tree}

/-! ## The search path -/

/-- The directories that are not on the path yet. -/
def newDirs (paths path : List Dir) : List Dir :=
  (paths.filter fun dir ↦ !path.contains dir).dedup

theorem mem_newDirs {dir : Dir} {paths path : List Dir} :
    dir ∈ newDirs paths path ↔ dir ∈ paths ∧ dir ∉ path := by
  simp [newDirs]

theorem prependSysPath_eq (paths path : List Dir) :
    prependSysPath paths path = (newDirs paths path ++ path, (newDirs paths path).reverse) := by
  induction paths with
  | nil => rfl
  | cons dir rest ih =>
      rw [prependSysPath, List.reverse_cons, List.foldl_append]
      change List.foldl _ (prependSysPath rest path) [dir] = _
      rw [ih, List.foldl_cons, List.foldl_nil]
      dsimp only
      by_cases hpath : dir ∈ path
      · have hnew : newDirs (dir :: rest) path = newDirs rest path := by
          rw [newDirs, List.filter_cons_of_neg (by simpa using hpath), newDirs]
        rw [if_pos (by simp [hpath]), hnew]
      · have hfilter : newDirs (dir :: rest) path =
            (dir :: rest.filter fun dir ↦ !path.contains dir).dedup := by
          rw [newDirs, List.filter_cons_of_pos (by simpa using hpath)]
        by_cases hrest : dir ∈ rest
        · have hnew : newDirs (dir :: rest) path = newDirs rest path := by
            rw [hfilter, List.dedup_cons_of_mem (by simp [hrest, hpath]), newDirs]
          rw [if_pos (by simp [mem_newDirs, hrest, hpath]), hnew]
        · have hnew : newDirs (dir :: rest) path = dir :: newDirs rest path := by
            rw [hfilter, List.dedup_cons_of_notMem (by simp [hrest]), newDirs]
          rw [if_neg (by simp [mem_newDirs, hrest, hpath]), hnew, List.reverse_cons,
            List.cons_append]

/-- Removing again, in the order of insertion, what has been inserted at the front. -/
theorem foldl_erase_reverse_append {inserted : List Dir} (h : inserted.Nodup) (path : List Dir) :
    inserted.foldl List.erase (inserted.reverse ++ path) = path := by
  induction inserted with
  | nil => rfl
  | cons dir rest ih =>
      obtain ⟨hdir, hrest⟩ := List.nodup_cons.mp h
      have herase : (rest.reverse ++ (dir :: path)).erase dir = rest.reverse ++ path := by
        rw [List.erase_append_right _ (by simpa using hdir), List.erase_cons_head]
      rw [List.reverse_cons, List.append_assoc, List.foldl_cons, List.singleton_append, herase]
      exact ih hrest

/-- What leaving makes of the path that entering has made. -/
theorem foldl_erase_prependSysPath (paths path : List Dir) :
    (prependSysPath paths path).2.foldl List.erase (prependSysPath paths path).1 = path := by
  rw [prependSysPath_eq]
  have h := foldl_erase_reverse_append
    (List.nodup_reverse.mpr (List.nodup_dedup (paths.filter fun dir ↦ !path.contains dir))) path
  rwa [List.reverse_reverse] at h

theorem mem_prependSysPath {dir : Dir} {paths path : List Dir} (h : dir ∈ paths) :
    dir ∈ (prependSysPath paths path).1 := by
  rw [prependSysPath_eq]
  by_cases hpath : dir ∈ path
  · exact List.mem_append_right _ hpath
  · exact List.mem_append_left _ (mem_newDirs.mpr ⟨h, hpath⟩)

/-- The path below a stack of contexts. -/
def pathBelow : List ImportContext → List Dir → List Dir
  | [], path => path
  | context :: rest, path => pathBelow rest (context.inserted.foldl List.erase path)

/-- The contexts entered above those of `s`, and the path they will leave behind. -/
def Above (s t : Interpreter) : Prop :=
  ∃ above, t.contexts = above ++ s.contexts ∧ pathBelow above t.sysPath = s.sysPath

theorem importModule_contexts (s : Interpreter) (name : ModuleName) :
    (T.importModule s name).contexts = s.contexts ∧
      (T.importModule s name).sysPath = s.sysPath := by
  rw [Tree.importModule]
  split <;> exact ⟨rfl, rfl⟩

theorem Above.step {s t u : Interpreter} {l : Tree.Step} (h : Above s t)
    (hdeep : s.contexts.length < t.contexts.length) (hstep : T.step t l = some u) :
    Above s u := by
  obtain ⟨above, hcontexts, hpath⟩ := h
  cases l with
  | enter caseName extra =>
      obtain rfl := Option.some.inj hstep
      refine ⟨_ :: above, congrArg (List.cons _) hcontexts, ?_⟩
      rw [pathBelow]
      exact (congrArg (pathBelow above) (foldl_erase_prependSysPath _ _)).trans hpath
  | leave =>
      cases above with
      | nil =>
          rw [hcontexts] at hdeep
          exact absurd hdeep (lt_irrefl _)
      | cons context above =>
          simp only [Tree.step, hcontexts, List.cons_append] at hstep
          obtain rfl := Option.some.inj hstep
          exact ⟨above, rfl, hpath⟩
  | load name =>
      rw [Tree.step] at hstep
      split_ifs at hstep
      obtain rfl := Option.some.inj hstep
      obtain ⟨hc, hp⟩ := importModule_contexts (T := T) t name
      exact ⟨above, hc.trans hcontexts, (congrArg (pathBelow above) hp).trans hpath⟩
  | raise name =>
      obtain rfl := Option.some.inj hstep
      exact ⟨above, hcontexts, hpath⟩

/-- **The path comes back.**  Whatever is entered, imported and left in between. -/
theorem sysPath_restored {s entered inside left : Interpreter} {caseName : String}
    {extra : List Dir} (henter : T.step s (.enter caseName extra) = some entered)
    (hinside : Machine.Reach T.step (fun t _ ↦ s.contexts.length < t.contexts.length) entered
      inside)
    (hleave : T.step inside .leave = some left)
    (hleft : left.contexts.length = s.contexts.length) : left.sysPath = s.sysPath := by
  have hentered : Above s entered := by
    obtain rfl := Option.some.inj henter
    exact ⟨[_], rfl, foldl_erase_prependSysPath _ _⟩
  have hlast : Above s inside :=
    hinside.invariant hentered fun _ _ _ h hdeep hstep ↦ h.step hdeep hstep
  have hdeep : s.contexts.length < inside.contexts.length := by
    rw [Tree.step] at hleave
    split at hleave
    · cases hleave
    · next context rest hcontexts =>
        obtain rfl := Option.some.inj hleave
        rw [hcontexts, ← hleft]
        exact Nat.lt_succ_self _
  obtain ⟨above, hcontexts, hpath⟩ := hlast.step hdeep hleave
  have habove : above = [] := by
    rw [hcontexts, List.length_append] at hleft
    exact List.length_eq_zero_iff.mp (by omega)
  subst habove
  exact hpath

/-! ## When a Case is kept apart -/

/-- The directories that stand in front of the Case's own once its context has been entered. -/
def Tree.inFront (T : Tree) (s : Interpreter) (caseName : String) (extra : List Dir) : List Dir :=
  let paths := T.root :: T.caseRoot caseName :: extra
  (newDirs paths s.sysPath ++ s.sysPath).takeWhile (· ≠ T.caseRoot caseName)

/-- A context is entered where nothing in front hides a module of the Case, and what its code
loads from the directory of a Case, or finds in its own, has a listed name. -/
def Tree.Proper (T : Tree) (s : Interpreter) : Step → Prop
  | .enter caseName extra => ∀ dir ∈ T.inFront s caseName extra,
      ∀ name ∈ T.listing (T.caseRoot caseName), name.length = 1 → name ∉ T.listing dir
  | .load name => ∀ context, s.current = some context → isCaseLocal name = true ∨
      (name ∉ T.listing (T.caseRoot context.caseName) ∧
        (s.sysModules name = none → ∀ dir, T.origin s name = some dir →
          T.caseOf (dir ++ name) = none))
  | _ => True

/-- The listed modules have been loaded in the context, along its path. -/
def Tree.Loaded (T : Tree) (context : ImportContext) (path : List Dir) (modules : Modules) :
    Prop :=
  ∀ name m, isCaseLocal name = true → modules name = some m → m.loadedIn = some context.id ∧
    path.find? (fun dir ↦ (T.listing dir).contains (name.take 1)) = some m.dir

/-- A top-level module that the Case has is found in its own directory. -/
def Tree.OwnFirst (T : Tree) (caseName : String) (path : List Dir) : Prop :=
  ∀ name ∈ T.listing (T.caseRoot caseName), name.length = 1 →
    path.find? (fun dir ↦ (T.listing dir).contains name) = some (T.caseRoot caseName)

/-- Every open context, with the path and the modules that are its own. -/
def Tree.Stacked (T : Tree) : List ImportContext → List Dir → Modules → Prop
  | [], _, _ => True
  | context :: rest, path, modules =>
      T.Loaded context path modules ∧ T.OwnFirst context.caseName path ∧
        (∀ name, isCaseLocal name = false → context.previousModules name = none) ∧
        T.Stacked rest (context.inserted.foldl List.erase path) context.previousModules

/-- What holds along a run whose steps are proper. -/
structure Apart (T : Tree) (s : Interpreter) : Prop where
  stacked : T.Stacked s.contexts s.sysPath s.sysModules
  /-- Nothing loaded in a context stays of a Case's directory. -/
  unlisted : ∀ name m, isCaseLocal name = false → s.sysModules name = some m →
    m.loadedIn.isSome → T.caseOf (m.dir ++ name) = none

theorem Tree.Stacked.congr {contexts : List ImportContext} {path : List Dir}
    {modules modules' : Modules} (h : T.Stacked contexts path modules)
    (heq : ∀ name, isCaseLocal name = true → modules' name = modules name) :
    T.Stacked contexts path modules' := by
  cases contexts with
  | nil => trivial
  | cons context rest =>
      obtain ⟨hloaded, hrest⟩ := h
      refine ⟨?_, hrest⟩
      intro name m hname hm
      rw [heq name hname] at hm
      exact hloaded name m hname hm

/-- A search that meets nothing suitable before `own` ends there. -/
theorem find?_eq_some_of_takeWhile {path : List Dir} {own : Dir} {p : Dir → Bool}
    (hmem : own ∈ path) (hown : p own = true)
    (hfront : ∀ dir ∈ path.takeWhile (· ≠ own), p dir = false) : path.find? p = some own := by
  induction path with
  | nil => cases hmem
  | cons dir rest ih =>
      by_cases hdir : dir = own
      · subst hdir
        rw [List.find?_cons_of_pos hown]
      · rw [List.takeWhile_cons_of_pos (by simpa using hdir)] at hfront
        rw [List.find?_cons_of_neg (by simp [hfront dir List.mem_cons_self])]
        refine ih ((List.mem_cons.mp hmem).resolve_left (Ne.symm hdir)) ?_
        exact fun d hd ↦ hfront d (List.mem_cons_of_mem _ hd)

/-! ## What a step keeps -/

theorem Apart.enter {s : Interpreter} (h : Apart T s) {caseName : String} {extra : List Dir}
    (hproper : T.Proper s (.enter caseName extra)) : Apart T (T.enterCase s caseName extra) where
  stacked := by
    refine ⟨?_, ?_, ?_, ?_⟩
    · intro name m hname hm
      simp [Tree.enterCase, purgeCaseLocalModules, hname] at hm
    · intro name hown hlength
      refine find?_eq_some_of_takeWhile (mem_prependSysPath (by simp)) (by simpa using hown) ?_
      intro dir hdir
      rw [Tree.enterCase, prependSysPath_eq] at hdir
      simpa using hproper dir hdir name hown hlength
    · intro name hname
      simp [caseLocalModules, hname]
    · rw [Tree.enterCase, foldl_erase_prependSysPath]
      refine h.stacked.congr ?_
      intro name hname
      simp [caseLocalModules, hname]
  unlisted := by
    intro name m hname hm
    have hm : s.sysModules name = some m := by
      simpa [Tree.enterCase, purgeCaseLocalModules, hname] using hm
    exact h.unlisted name m hname hm

theorem Apart.leave {s : Interpreter} (h : Apart T s) {context : ImportContext}
    {rest : List ImportContext} (hcontexts : s.contexts = context :: rest) :
    Apart T (Tree.leaveCase s context rest) := by
  have hstacked := h.stacked
  rw [hcontexts] at hstacked
  obtain ⟨-, -, hprevious, hrest⟩ := hstacked
  constructor
  · refine hrest.congr ?_
    intro name hname
    simp [Tree.leaveCase, Modules.updateWith, purgeCaseLocalModules, hname]
  · intro name m hname hm
    have hm : s.sysModules name = some m := by
      simpa [Tree.leaveCase, Modules.updateWith, purgeCaseLocalModules, hname, hprevious name hname]
        using hm
    exact h.unlisted name m hname hm

theorem isCaseLocal_dropLast {first second : String} {rest : List String} :
    isCaseLocal (first :: second :: rest).dropLast = isCaseLocal (first :: second :: rest) := by
  rfl

/-- Where an import loads from is where the top-level package is found. -/
theorem Tree.Loaded.origin {s : Interpreter} {context : ImportContext}
    (h : T.Loaded context s.sysPath s.sysModules) {name : ModuleName} {dir : Dir}
    (hname : isCaseLocal name = true) (horigin : T.origin s name = some dir) :
    s.sysPath.find? (fun dir ↦ (T.listing dir).contains (name.take 1)) = some dir := by
  match name with
  | [] => cases horigin
  | [_] => exact horigin
  | first :: second :: rest =>
      rw [Tree.origin, Option.filter_eq_some_iff] at horigin
      obtain ⟨hparent, -⟩ := horigin
      obtain ⟨parent, hloaded, rfl⟩ := Option.map_eq_some_iff.mp hparent
      exact (h _ parent (isCaseLocal_dropLast.trans hname) hloaded).2

theorem Apart.load {s : Interpreter} (h : Apart T s) {name : ModuleName}
    (hproper : T.Proper s (.load name)) : Apart T (T.importModule s name) := by
  rw [Tree.importModule]
  split
  next dir hnone horigin =>
    constructor
    · have hstacked := h.stacked
      dsimp only
      cases hcontexts : s.contexts with
      | nil => trivial
      | cons context rest =>
          rw [hcontexts] at hstacked
          obtain ⟨hloaded, hrest⟩ := hstacked
          refine ⟨?_, hrest⟩
          intro other m hother hm
          by_cases heq : other = name
          · subst heq
            rw [Function.update_self] at hm
            obtain rfl := Option.some.inj hm
            refine ⟨?_, hloaded.origin hother horigin⟩
            simp [Interpreter.current, hcontexts]
          · rw [Function.update_of_ne heq] at hm
            exact hloaded other m hother hm
    · intro other m hother hm hsome
      dsimp only at hm
      by_cases heq : other = name
      · subst heq
        rw [Function.update_self] at hm
        obtain rfl := Option.some.inj hm
        obtain ⟨context, hcurrent⟩ : ∃ context, s.current = some context := by
          rw [Option.isSome_map] at hsome
          exact Option.isSome_iff_exists.mp hsome
        rcases hproper context hcurrent with hlisted | ⟨-, hforeign⟩
        · rw [hother] at hlisted
          cases hlisted
        · exact hforeign hnone dir horigin
      · rw [Function.update_of_ne heq] at hm
        exact h.unlisted other m hother hm hsome
  next => exact h

theorem Apart.raise {s : Interpreter} (h : Apart T s) (name : ModuleName) :
    Apart T { s with sysModules := Function.update s.sysModules name none } := by
  have hsub : ∀ other m, Function.update s.sysModules name none other = some m →
      s.sysModules other = some m := by
    intro other m hm
    by_cases heq : other = name
    · subst heq
      rw [Function.update_self] at hm
      cases hm
    · rwa [Function.update_of_ne heq] at hm
  constructor
  · have hstacked := h.stacked
    dsimp only
    cases hcontexts : s.contexts with
    | nil => trivial
    | cons context rest =>
        rw [hcontexts] at hstacked
        obtain ⟨hloaded, hrest⟩ := hstacked
        exact ⟨fun other m hother hm ↦ hloaded other m hother (hsub other m hm), hrest⟩
  · exact fun other m hother hm ↦ h.unlisted other m hother (hsub other m hm)

theorem Apart.step {s t : Interpreter} {l : Tree.Step} (h : Apart T s) (hproper : T.Proper s l)
    (hstep : T.step s l = some t) : Apart T t := by
  cases l with
  | enter caseName extra =>
      obtain rfl := Option.some.inj hstep
      exact h.enter hproper
  | leave =>
      rw [Tree.step] at hstep
      split at hstep
      · cases hstep
      · next context rest hcontexts =>
          obtain rfl := Option.some.inj hstep
          exact h.leave hcontexts
  | load name =>
      rw [Tree.step] at hstep
      split_ifs at hstep
      obtain rfl := Option.some.inj hstep
      exact h.load hproper
  | raise name =>
      obtain rfl := Option.some.inj hstep
      exact h.raise name

theorem apart_initial (sysPath : List Dir) (loaded : ModuleName → Option Dir) :
    Apart T (Tree.initial sysPath loaded) where
  stacked := trivial
  unlisted := by
    intro name m _ hm hsome
    obtain ⟨dir, -, rfl⟩ := Option.map_eq_some_iff.mp hm
    cases hsome

theorem apart_of_reach {sysPath : List Dir} {loaded : ModuleName → Option Dir} {s : Interpreter}
    (h : Machine.Reach T.step T.Proper (Tree.initial sysPath loaded) s) : Apart T s :=
  h.invariant (apart_initial sysPath loaded) fun _ _ _ hs hproper hstep ↦ hs.step hproper hstep

/-! ## Isolation -/

/-- The code of a Case finds no module that another context has loaded from the directory of
another Case. -/
def Tree.Isolated (T : Tree) (s : Interpreter) : Prop :=
  ∀ context, s.current = some context → ∀ name m owner, s.sysModules name = some m →
    T.caseOf (m.dir ++ name) = some owner → owner ≠ context.caseName →
    m.loadedIn.isSome → m.loadedIn = some context.id

/-- Importing a module that the Case's own directory has leaves that module in `sys.modules`. -/
def Tree.ImportsOwn (T : Tree) (s : Interpreter) (name : ModuleName) : Prop :=
  ∀ context t, s.current = some context → name ∈ T.listing (T.caseRoot context.caseName) →
    T.step s (.load name) = some t →
    (t.sysModules name).map (·.dir) = some (T.caseRoot context.caseName)

theorem Apart.isolated {s : Interpreter} (h : Apart T s) : T.Isolated s := by
  intro context hcurrent name m owner hm howner _ hsome
  cases hlisted : isCaseLocal name with
  | false =>
      rw [h.unlisted name m hlisted hm hsome] at howner
      cases howner
  | true =>
      obtain ⟨rest, hcontexts⟩ : ∃ rest, s.contexts = context :: rest :=
        List.head?_eq_some_iff.mp hcurrent
      have hstacked := h.stacked
      rw [hcontexts] at hstacked
      exact (hstacked.1 name m hlisted hm).1

theorem Tree.take_one_mem {dir : Dir} {first : String} {rest : List String}
    (h : first :: rest ∈ T.listing dir) : [first] ∈ T.listing dir := by
  induction rest using List.reverseRecOn with
  | nil => exact h
  | append_singleton rest last ih =>
      exact ih (T.parent_mem dir (first :: rest) last (List.cons_ne_nil _ _) h)

theorem Apart.importsOwn {s : Interpreter} (h : Apart T s) {name : ModuleName}
    (hproper : T.Proper s (.load name)) : T.ImportsOwn s name := by
  intro context t hcurrent hown hstep
  rcases hproper context hcurrent with hlisted | ⟨hforeign, -⟩
  swap
  · exact absurd hown hforeign
  obtain ⟨rest, hcontexts⟩ : ∃ rest, s.contexts = context :: rest :=
    List.head?_eq_some_iff.mp hcurrent
  have hstacked := h.stacked
  rw [hcontexts] at hstacked
  obtain ⟨hloaded, hfirst, -⟩ := hstacked
  match name with
  | [] => cases hlisted
  | first :: tail =>
      -- the search for the top-level package ends in the Case's own directory
      have hsearch := hfirst [first] (Tree.take_one_mem hown) rfl
      rw [Tree.step] at hstep
      split_ifs at hstep with hparent
      obtain rfl := Option.some.inj hstep
      cases hfound : s.sysModules (first :: tail) with
      | some m =>
          have hdir := (hloaded _ m hlisted hfound).2
          rw [Tree.importModule, hfound]
          rw [List.take_succ_cons, List.take_zero, hsearch] at hdir
          rw [hfound, Option.map_some, Option.some.inj hdir]
      | none =>
          have horigin : T.origin s (first :: tail) = some (T.caseRoot context.caseName) := by
            match tail with
            | [] => exact hsearch
            | second :: tail =>
                have hparent := hparent.resolve_left (by simp)
                obtain ⟨parent, hparent⟩ := Option.isSome_iff_exists.mp hparent
                have hdir := (hloaded _ parent (isCaseLocal_dropLast.trans hlisted) hparent).2
                rw [List.dropLast_cons_cons, List.take_succ_cons, List.take_zero, hsearch] at hdir
                rw [Tree.origin, hparent, Option.map_some, ← Option.some.inj hdir]
                exact Option.filter_eq_some_iff.mpr ⟨rfl, by simpa using hown⟩
          rw [Tree.importModule, hfound, horigin]
          simp

/-- No context takes a module of an unlisted name out of `sys.modules`, or brings another in its
place. -/
theorem unlisted_stays {s t : Interpreter} {name : ModuleName} {m : Module}
    (hname : isCaseLocal name = false)
    (hcontexts : ∀ context ∈ s.contexts, context.previousModules name = none)
    (hreach : Machine.Reach T.step (fun _ l ↦ l ≠ .raise name) s t)
    (hm : s.sysModules name = some m) : t.sysModules name = some m := by
  refine (hreach.invariant (I := fun t ↦
    (∀ context ∈ t.contexts, context.previousModules name = none) ∧ t.sysModules name = some m)
    ⟨hcontexts, hm⟩ ?_).2
  rintro s l t ⟨hcontexts, hm⟩ hraise hstep
  cases l with
  | enter caseName extra =>
      obtain rfl := Option.some.inj hstep
      refine ⟨?_, by simpa [Tree.enterCase, purgeCaseLocalModules, hname] using hm⟩
      intro context hcontext
      rcases List.mem_cons.mp hcontext with rfl | hcontext
      · simp [caseLocalModules, hname]
      · exact hcontexts context hcontext
  | leave =>
      rw [Tree.step] at hstep
      split at hstep
      · cases hstep
      · next context rest hstack =>
          obtain rfl := Option.some.inj hstep
          rw [hstack] at hcontexts
          refine ⟨fun c hc ↦ hcontexts c (List.mem_cons_of_mem _ hc), ?_⟩
          simpa [Tree.leaveCase, Modules.updateWith, purgeCaseLocalModules, hname,
            hcontexts context List.mem_cons_self] using hm
  | load other =>
      rw [Tree.step] at hstep
      split_ifs at hstep
      obtain rfl := Option.some.inj hstep
      refine ⟨?_, ?_⟩
      · rwa [(importModule_contexts s other).1]
      · rw [Tree.importModule]
        split
        next dir hnone _ =>
          have hne : name ≠ other := by
            rintro rfl
            rw [hm] at hnone
            cases hnone
          dsimp only
          rwa [Function.update_of_ne hne]
        next => exact hm
  | raise other =>
      obtain rfl := Option.some.inj hstep
      have hne : name ≠ other := fun h ↦ hraise (congrArg Tree.Step.raise h.symm)
      refine ⟨hcontexts, ?_⟩
      dsimp only
      rwa [Function.update_of_ne hne]

/-- **Import contexts keep the Cases of a project apart** along every run in which Cases load
listed names from their directories and nothing in front hides one of them; the search path comes
back on leaving a context. -/
theorem case_imports_isolated (T : Tree) (sysPath : List Dir) (loaded : ModuleName → Option Dir)
    (s : Interpreter)
    (hreach : Machine.Reach T.step T.Proper (Tree.initial sysPath loaded) s) :
    T.Isolated s ∧ (∀ name, T.Proper s (.load name) → T.ImportsOwn s name) ∧
      ∀ caseName extra entered inside left, T.step s (.enter caseName extra) = some entered →
        Machine.Reach T.step (fun t _ ↦ s.contexts.length < t.contexts.length) entered inside →
        T.step inside .leave = some left → left.contexts.length = s.contexts.length →
        left.sysPath = s.sysPath := by
  have h := apart_of_reach hreach
  refine ⟨h.isolated, fun name hproper ↦ h.importsOwn hproper, ?_⟩
  intro caseName extra entered inside left henter hinside hleave hleft
  exact sysPath_restored henter hinside hleave hleft

/-! ## Two Cases with modules of the same names -/

/-- Two Cases, each with its own `helpers` and its own `plugins`. -/
def twoCases : Tree where
  root := ["project"]
  listing dir :=
    if dir = ["project", "cases", "first"] ∨ dir = ["project", "cases", "second"] then
      [["helpers"], ["plugins"]]
    else []
  parent_mem := by
    intro dir name last hname hmem
    split_ifs at hmem
    · have hlength := List.length_pos_iff.mpr hname
      simp only [List.mem_cons, List.not_mem_nil, or_false] at hmem
      rcases hmem with h | h <;>
      · have hlast := congrArg List.length h
        rw [List.length_append, List.length_singleton, List.length_singleton] at hlast
        omega
    · cases hmem

/-- The `helpers` of the first Case are still there when the second is entered. -/
theorem unlisted_stays_helpers : ∃ s t,
    Machine.run twoCases.step (Tree.initial [] fun _ ↦ none)
      [.enter "first" [], .load ["helpers"]] = some s ∧
    Machine.run twoCases.step s [.leave, .enter "second" []] = some t ∧
    t.sysModules ["helpers"] = some ⟨twoCases.caseRoot "first", some 0⟩ := by
  have hm : (twoCases.importModule (twoCases.enterCase (Tree.initial [] fun _ ↦ none) "first" [])
    ["helpers"]).sysModules ["helpers"] = some ⟨twoCases.caseRoot "first", some 0⟩ := rfl
  refine ⟨_, _, rfl, rfl, unlisted_stays rfl ?_ ((Machine.Reach.refl.tail
    (l := .leave) nofun rfl).tail (l := .enter "second" []) nofun rfl) hm⟩
  intro context hcontext
  obtain rfl := List.mem_singleton.mp hcontext
  rfl

/-- The first Case imports a module and is left; then the second is entered. -/
def firstThenSecond (name : String) : List Tree.Step :=
  [.enter "first" [], .load [name], .leave, .enter "second" []]

theorem case_imports_isolated_plugins : ∃ s,
    Machine.run twoCases.step (Tree.initial [] fun _ ↦ none) (firstThenSecond "plugins") =
      some s ∧ s.current.map (·.caseName) = some "second" ∧ twoCases.Isolated s ∧
      twoCases.ImportsOwn s ["plugins"] := by
  have hreach : Machine.Reach twoCases.step twoCases.Proper (Tree.initial [] fun _ ↦ none) _ :=
    (((Machine.Reach.refl.tail (l := .enter "first" []) (by rw [Tree.Proper]; decide) rfl).tail
      (l := .load ["plugins"]) (by intro _ _; exact .inl rfl) rfl).tail
        (l := .leave) trivial rfl).tail (l := .enter "second" []) (by rw [Tree.Proper]; decide) rfl
  obtain ⟨hisolated, hown, -⟩ := case_imports_isolated twoCases [] (fun _ ↦ none) _ hreach
  exact ⟨_, rfl, rfl, hisolated, hown ["plugins"] (by intro _ _; exact .inl rfl)⟩

/-- `helpers` is no listed name: the second Case is given the module of the first. -/
theorem helpers_shared : ∃ s t,
    Machine.run twoCases.step (Tree.initial [] fun _ ↦ none) (firstThenSecond "helpers") =
      some s ∧ s.current.map (·.caseName) = some "second" ∧ ¬ twoCases.Isolated s ∧
      ["helpers"] ∈ twoCases.listing (twoCases.caseRoot "second") ∧
      twoCases.step s (.load ["helpers"]) = some t ∧
      (t.sysModules ["helpers"]).map (·.dir) = some (twoCases.caseRoot "first") := by
  refine ⟨_, _, rfl, rfl, ?_, by decide, rfl, rfl⟩
  intro h
  have hfirst := h _ rfl ["helpers"] ⟨["project", "cases", "first"], some 0⟩ "first" rfl rfl
    (by decide) rfl
  revert hfirst
  decide

end Blackbase.Project.Imports
