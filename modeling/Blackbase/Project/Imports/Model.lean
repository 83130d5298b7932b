import Blackbase.Core.Machine

/-!
# Import contexts of Cases

A Case is imported inside a context that puts the directories of the Case in front of `sys.path`
and takes the modules of the listed short names out of `sys.modules`; on leaving, the directories
are removed again and the modules put back.  Both tables are global to the process, and so is the
lock the contexts hold: contexts nest, and the one left is the innermost.

Between entering and leaving, code imports modules, one dotted component at a time: a name that
is in `sys.modules` is found there, a top-level name is searched along `sys.path`, and a dotted
name in the package that its parent has been loaded from.  The body of a module runs after the
module has been entered into `sys.modules`, and what it imports are further steps.
-/

namespace Blackbase.Project.Imports

/-- A resolved directory, by its components. -/
abbrev Dir := List String

/-- The dotted name of a module, by its components. -/
abbrev ModuleName := List String

/-- `_CASE_LOCAL_MODULE_ROOTS` -/
def caseLocalModuleRoots : List String :=
  ["adapter", "adapters", "assembly", "bias", "capabilities", "case_scaffold", "cases", "catalog",
    "cli", "config", "evaluation", "inner_solver", "pipeline", "plugins", "problem",
    "refactor_data", "reporting", "runtime", "solver", "working_blacklist_optimizer",
    "working_integrated_optimizer", "working_nested_optimizer"]

/-- The first component of the name is a listed one. -/
def isCaseLocal (name : ModuleName) : Bool :=
  name.head?.any (caseLocalModuleRoots.contains ·)

/-- A module object: the directory its top-level package was found in, and the context whose code
has loaded it, `none` outside all contexts. -/
structure Module where
  dir : Dir
  loadedIn : Option ℕ
deriving DecidableEq

/-- `sys.modules` -/
abbrev Modules := ModuleName → Option Module

/-- `_case_local_modules` -/
def caseLocalModules (modules : Modules) : Modules :=
  fun name ↦ if isCaseLocal name then modules name else none

/-- `_purge_case_local_modules` -/
def purgeCaseLocalModules (modules : Modules) : Modules :=
  fun name ↦ if isCaseLocal name then none else modules name

/-- `sys.modules.update(previous_modules)` -/
def Modules.updateWith (modules previous : Modules) : Modules :=
  fun name ↦ (previous name).or (modules name)

/-- `_prepend_sys_path`: the new path, and the directories inserted, in the order of insertion. -/
def prependSysPath (paths path : List Dir) : List Dir × List Dir :=
  paths.reverse.foldl
    (fun acc dir ↦ if acc.1.contains dir then acc else (dir :: acc.1, acc.2 ++ [dir])) (path, [])

/-- A context that has been entered, with what it needs on leaving. -/
structure ImportContext where
  caseName : String
  id : ℕ
  inserted : List Dir
  previousModules : Modules

/-- The import state of the process; the innermost context comes first. -/
structure Interpreter where
  sysPath : List Dir
  sysModules : Modules
  contexts : List ImportContext
  entered : ℕ

/-- The context whose code is running. -/
def Interpreter.current (s : Interpreter) : Option ImportContext := s.contexts.head?

/-- The files of a project: its root, and the modules below each directory. -/
structure Tree where
  root : Dir
  listing : Dir → List ModuleName
  /-- What is below a package is a module of that package. -/
  parent_mem : ∀ dir name last, name ≠ [] → name ++ [last] ∈ listing dir → name ∈ listing dir

namespace Tree

variable (T : Tree)

/-- `root / "cases" / str(case_name)` -/
def caseRoot (caseName : String) : Dir := T.root ++ ["cases", caseName]

/-- The Case in whose directory a file lies. -/
def caseOf (file : List String) : Option String :=
  if T.root ++ ["cases"] <+: file then file[T.root.length + 1]? else none

/-- The directory that an import of a module that is not loaded loads it from. -/
def origin (s : Interpreter) (name : ModuleName) : Option Dir :=
  match name with
  | [] => none
  | [_] => s.sysPath.find? fun dir ↦ (T.listing dir).contains name
  | _ :: _ :: _ => ((s.sysModules name.dropLast).map (·.dir)).filter fun dir ↦
      (T.listing dir).contains name

/-- The steps of a process: entering and leaving contexts, importing one component, and a body
that raises, so that its module is removed again. -/
inductive Step
  | enter (caseName : String) (extraImportPaths : List Dir)
  | leave
  | load (name : ModuleName)
  | raise (name : ModuleName)
deriving DecidableEq

/-- `_case_import_context`, up to the `yield`. -/
def enterCase (s : Interpreter) (caseName : String) (extraImportPaths : List Dir) : Interpreter :=
  let prepended := prependSysPath (T.root :: T.caseRoot caseName :: extraImportPaths) s.sysPath
  { sysPath := prepended.1
    sysModules := purgeCaseLocalModules s.sysModules
    contexts := ⟨caseName, s.entered, prepended.2, caseLocalModules s.sysModules⟩ :: s.contexts
    entered := s.entered + 1 }

/-- The `finally` of `_project_import_context`. -/
def leaveCase (s : Interpreter) (context : ImportContext) (rest : List ImportContext) :
    Interpreter :=
  { sysPath := context.inserted.foldl List.erase s.sysPath
    sysModules := (purgeCaseLocalModules s.sysModules).updateWith context.previousModules
    contexts := rest
    entered := s.entered }

/-- The import of one component. -/
def importModule (s : Interpreter) (name : ModuleName) : Interpreter :=
  match s.sysModules name, T.origin s name with
  | none, some dir =>
      { s with
        sysModules := Function.update s.sysModules name
          (some ⟨dir, s.current.map ImportContext.id⟩) }
  | _, _ => s  -- found in `sys.modules`, or `ModuleNotFoundError`

/-- One step; the parent of a dotted name is imported first. -/
def step (s : Interpreter) : Step → Option Interpreter
  | .enter caseName extraImportPaths => some (T.enterCase s caseName extraImportPaths)
  | .leave =>
      match s.contexts with
      | [] => none
      | context :: rest => some (leaveCase s context rest)
  | .load name =>
      if name.length ≤ 1 ∨ (s.sysModules name.dropLast).isSome then some (T.importModule s name)
      else none
  | .raise name => some { s with sysModules := Function.update s.sysModules name none }

/-- A process in which no context has been entered. -/
def initial (sysPath : List Dir) (loaded : ModuleName → Option Dir) : Interpreter :=
  ⟨sysPath, fun name ↦ (loaded name).map (⟨·, none⟩), [], 0⟩

end Tree

end Blackbase.Project.Imports
