import Blackbase.Core.Selection
import Blackbase.Core.Text

/-!
# The fingerprint of a project configuration

`project_config_fingerprint` of `project/run_manifest.py` hashes the paths and the contents of the
configuration files, each with a NUL after it.  No path has a NUL in it, but a content may, and then
it may spell the files that follow.
-/

namespace Blackbase.Project.Fingerprint

/-! ## Bytes of a text -/

/-- `text.encode("utf-8")`. -/
def encode (text : String) : List UInt8 := text.toList.flatMap String.utf8EncodeChar

theorem encode_injective {s s' : String} (h : encode s = encode s') : s = s' := by
  have hbytes : s.toList.utf8Encode = s'.toList.utf8Encode := congrArg List.toByteArray h
  have hlists := String.toByteArray_inj.mp
    ((String.toByteArray_ofList (l := s.toList)).trans
      (hbytes.trans (String.toByteArray_ofList (l := s'.toList)).symm))
  exact String.toList_inj.mp (String.ofList_injective hlists)

theorem zero_ne_ofNat {n : Nat} (hpos : n ≠ 0) (hlt : n < 256) : 0 ≠ UInt8.ofNat n := by
  intro h
  have hzero := congrArg UInt8.toNat h
  rw [UInt8.toNat_ofNat', Nat.mod_eq_of_lt hlt] at hzero
  exact hpos hzero.symm

/-- Only the character NUL is encoded with a byte zero. -/
theorem zero_not_mem_utf8EncodeChar {c : Char} (h : c.toNat ≠ 0) :
    0 ∉ String.utf8EncodeChar c := by
  have hv : c.val.toNat ≠ 0 := h
  fun_cases String.utf8EncodeChar c with
  | case1 v =>
      rw [List.mem_singleton]
      exact zero_ne_ofNat hv (by omega)
  | case2 v =>
      simp only [List.mem_cons, List.not_mem_nil, or_false, not_or]
      exact ⟨zero_ne_ofNat (by omega) (by omega), zero_ne_ofNat (by omega) (by omega)⟩
  | case3 v =>
      simp only [List.mem_cons, List.not_mem_nil, or_false, not_or]
      exact ⟨zero_ne_ofNat (by omega) (by omega), zero_ne_ofNat (by omega) (by omega),
        zero_ne_ofNat (by omega) (by omega)⟩
  | case4 v =>
      simp only [List.mem_cons, List.not_mem_nil, or_false, not_or]
      exact ⟨zero_ne_ofNat (by omega) (by omega), zero_ne_ofNat (by omega) (by omega),
        zero_ne_ofNat (by omega) (by omega), zero_ne_ofNat (by omega) (by omega)⟩

theorem noNul_of_all {text : String} (h : text.toList.all fun c ↦ c.toNat != 0) :
    ∀ c ∈ text.toList, c.toNat ≠ 0 := by
  intro c hc
  exact bne_iff_ne.mp (List.all_eq_true.mp h c hc)

theorem zero_not_mem_encode {text : String} (h : ∀ c ∈ text.toList, c.toNat ≠ 0) :
    0 ∉ encode text := by
  intro hmem
  obtain ⟨c, hc, hzero⟩ := List.mem_flatMap.mp hmem
  exact zero_not_mem_utf8EncodeChar (h c hc) hzero

/-! ## The files -/

/-- The last segment of a path. -/
def baseName (path : String) : List Char := path.toList.rtakeWhile (· ≠ '/')

/-- `path.suffix == ".py" or path.name == ".case"`, below `cases`. -/
def isTracked (path : String) : Bool :=
  Text.startsWith path "cases/" &&
    ((".py".toList.isSuffixOf (baseName path) && baseName path ≠ ".py".toList) ||
      baseName path = ".case".toList)

/-- A file with its path relative to the root. -/
structure ConfigFile where
  path : String
  content : List UInt8
deriving DecidableEq

/-- The configuration files of a project. -/
structure ConfigCollection where
  projectConfig : List UInt8
  caseFiles : List ConfigFile
  tracked : ∀ f ∈ caseFiles, isTracked f.path
  noNul : ∀ f ∈ caseFiles, ∀ c ∈ f.path.toList, c.toNat ≠ 0
  nodup : (caseFiles.map ConfigFile.path).Nodup

namespace ConfigCollection

/-- `tracked_paths` with what is read there. -/
def files (C : ConfigCollection) : List ConfigFile :=
  ⟨"project_config.py", C.projectConfig⟩ :: C.caseFiles

/-- The files sorted by `relative_to(root).as_posix()`. -/
def sortedFiles (C : ConfigCollection) : List ConfigFile :=
  Selection.sorted ConfigFile.path C.files

theorem zero_not_mem_encode_path (C : ConfigCollection) {f : ConfigFile} (hf : f ∈ C.sortedFiles) :
    0 ∉ encode f.path := by
  have hroot : ∀ c ∈ "project_config.py".toList, c.toNat ≠ 0 := noNul_of_all (by decide)
  obtain rfl | hf := List.mem_cons.mp ((Selection.sorted_perm _ _).subset hf)
  · exact zero_not_mem_encode hroot
  · exact zero_not_mem_encode (C.noNul f hf)

theorem perm_of_sortedFiles_eq {C C' : ConfigCollection} (h : C.sortedFiles = C'.sortedFiles) :
    C.files.Perm C'.files := by
  have hperm : C.sortedFiles.Perm C.files := Selection.sorted_perm _ _
  have hperm' : C'.sortedFiles.Perm C'.files := Selection.sorted_perm _ _
  rw [h] at hperm
  exact hperm.symm.trans hperm'

end ConfigCollection

/-- What is hashed of one file. -/
def frame (f : ConfigFile) : List UInt8 := encode f.path ++ 0 :: f.content ++ [0]

/-- What is hashed after the files. -/
def tail (group framework : String) : List UInt8 := encode group ++ 0 :: encode framework

/-- The bytes `project_config_fingerprint` hashes. -/
def stream (C : ConfigCollection) (group framework : String) : List UInt8 :=
  C.sortedFiles.flatMap frame ++ tail group framework

/-- `project_config_fingerprint`. -/
def projectConfigFingerprint {D : Type} (sha256 : List UInt8 → D) (C : ConfigCollection)
    (group framework : String) : D :=
  sha256 (stream C group framework)

/-! ## Where the framing is ambiguous -/

/-- The bytes after a file of the first list, and so on to the end `t`, are spelled in the second
list, which ends with `t'`: a content goes on there where the first list has its NUL, or the second
list has a file more where the first one has ended. -/
inductive Overruns (t t' : List UInt8) : List ConfigFile → List ConfigFile → Prop where
  | content (path : String) (c x : List UInt8) (l l' : List ConfigFile)
      (h : l.flatMap frame ++ t = x ++ 0 :: (l'.flatMap frame ++ t')) :
      Overruns t t' (⟨path, c⟩ :: l) (⟨path, c ++ 0 :: x⟩ :: l')
  | atEnd (f : ConfigFile) (l' : List ConfigFile)
      (h : t = frame f ++ (l'.flatMap frame ++ t')) : Overruns t t' [] (f :: l')
  | later (f : ConfigFile) {l l' : List ConfigFile} (h : Overruns t t' l l') :
      Overruns t t' (f :: l) (f :: l')

variable {t t' : List UInt8} {l l' : List ConfigFile}

theorem frame_append (f : ConfigFile) (rest : List UInt8) :
    frame f ++ rest = encode f.path ++ 0 :: (f.content ++ 0 :: rest) := by
  simp [frame]

theorem Overruns.stream_eq (h : Overruns t t' l l') :
    l.flatMap frame ++ t = l'.flatMap frame ++ t' := by
  induction h with
  | content path c x l l' h =>
      rw [List.flatMap_cons, List.flatMap_cons, List.append_assoc, List.append_assoc, frame_append,
        frame_append, h, List.append_assoc, List.cons_append]
  | atEnd f l' h =>
      rw [List.flatMap_nil, List.nil_append, List.flatMap_cons, List.append_assoc]
      exact h
  | later f _ ih => rw [List.flatMap_cons, List.flatMap_cons, List.append_assoc, ih,
      List.append_assoc]

/-- What stands before the first zero byte is read in one way. -/
theorem append_zero_inj {a a' rest rest' : List UInt8} (ha : 0 ∉ a) (ha' : 0 ∉ a')
    (h : a ++ 0 :: rest = a' ++ 0 :: rest') : a = a' ∧ rest = rest' := by
  obtain ⟨d, rfl, hrest⟩ | ⟨d, rfl, hrest⟩ := List.append_eq_append_iff.mp h
  · cases d with
    | nil => exact ⟨(List.append_nil a).symm, (List.cons.inj hrest).2⟩
    | cons b d =>
        obtain rfl := (List.cons.inj hrest).1
        exact absurd (List.mem_append_right a (List.mem_cons_self ..)) ha'
  · cases d with
    | nil => exact ⟨List.append_nil a', (List.cons.inj hrest).2.symm⟩
    | cons b d =>
        obtain rfl := (List.cons.inj hrest).1
        exact absurd (List.mem_append_right a' (List.mem_cons_self ..)) ha

/-- Lists of files that are framed alike are the same, or one spells what follows in the other. -/
theorem overruns_of_stream_eq (hl : ∀ f ∈ l, 0 ∉ encode f.path) (hl' : ∀ f ∈ l', 0 ∉ encode f.path)
    (h : l.flatMap frame ++ t = l'.flatMap frame ++ t') :
    l = l' ∨ Overruns t t' l l' ∨ Overruns t' t l' l := by
  induction l generalizing l' with
  | nil =>
      cases l' with
      | nil => exact .inl rfl
      | cons f' l' =>
          rw [List.flatMap_nil, List.nil_append, List.flatMap_cons, List.append_assoc] at h
          exact .inr (.inl (.atEnd f' l' h))
  | cons f l ih =>
      cases l' with
      | nil =>
          rw [List.flatMap_nil, List.nil_append, List.flatMap_cons, List.append_assoc] at h
          exact .inr (.inr (.atEnd f l h.symm))
      | cons f' l' =>
          obtain ⟨hf, hrestl⟩ := List.forall_mem_cons.mp hl
          obtain ⟨hf', hrestl'⟩ := List.forall_mem_cons.mp hl'
          rw [List.flatMap_cons, List.flatMap_cons, List.append_assoc, List.append_assoc,
            frame_append, frame_append] at h
          obtain ⟨hpath, hrest⟩ := append_zero_inj hf hf' h
          obtain ⟨path, c⟩ := f
          obtain ⟨path', c'⟩ := f'
          obtain rfl : path = path' := encode_injective hpath
          obtain ⟨d, rfl, hd⟩ | ⟨d, rfl, hd⟩ := List.append_eq_append_iff.mp hrest
          · cases d with
            | nil =>
                rw [List.append_nil]
                obtain rfl | h | h := ih hrestl hrestl' (List.cons.inj hd).2
                · exact .inl rfl
                · exact .inr (.inl (h.later _))
                · exact .inr (.inr (h.later _))
            | cons b x =>
                obtain ⟨rfl, hx⟩ := List.cons.inj hd
                exact .inr (.inl (.content path c x l l' hx))
          · cases d with
            | nil =>
                rw [List.append_nil]
                obtain rfl | h | h := ih hrestl hrestl' (List.cons.inj hd).2.symm
                · exact .inl rfl
                · exact .inr (.inl (h.later _))
                · exact .inr (.inr (h.later _))
            | cons b x =>
                obtain ⟨rfl, hx⟩ := List.cons.inj hd
                exact .inr (.inr (.content path c' x l' l hx))

/-- Nothing is spelled in files that hold text. -/
theorem not_overruns_of_text (htext : ∀ f ∈ l', 0 ∉ f.content) : ¬ Overruns t t l l' := by
  intro h
  induction h with
  | content path c x l l' h =>
      exact (List.forall_mem_cons.mp htext).1 (List.mem_append_right c (List.mem_cons_self ..))
  | atEnd f l' h =>
      have hlength := congrArg List.length h
      rw [List.length_append, List.length_append, frame, List.length_append,
        List.length_singleton] at hlength
      omega
  | later f _ ih => exact ih (List.forall_mem_cons.mp htext).2

/-! ## Different collections -/

section Collections

variable {C C' : ConfigCollection} {group framework group' framework' : String}

/-- Different collections are hashed as different bytes just when neither of them spells what
follows in the other. -/
theorem stream_ne_iff (h : ¬ C.files.Perm C'.files) :
    stream C group framework ≠ stream C' group' framework' ↔
      ¬ Overruns (tail group framework) (tail group' framework') C.sortedFiles C'.sortedFiles ∧
      ¬ Overruns (tail group' framework') (tail group framework) C'.sortedFiles C.sortedFiles := by
  constructor
  · intro hne
    constructor
    · intro hover
      exact hne hover.stream_eq
    · intro hover
      exact hne hover.stream_eq.symm
  · rintro ⟨hover, hover'⟩ heq
    have hpath : ∀ f ∈ C.sortedFiles, 0 ∉ encode f.path := fun f ↦ C.zero_not_mem_encode_path
    have hpath' : ∀ f ∈ C'.sortedFiles, 0 ∉ encode f.path := fun f ↦ C'.zero_not_mem_encode_path
    obtain hsame | hspelled | hspelled := overruns_of_stream_eq hpath hpath' heq
    · exact h (ConfigCollection.perm_of_sortedFiles_eq hsame)
    · exact hover hspelled
    · exact hover' hspelled

end Collections

/-! ## A file that spells another -/

theorem tracked_two : isTracked "cases/a.py" ∧ isTracked "cases/b.py" := by decide

theorem noNul_two : ∀ path ∈ ["cases/a.py", "cases/b.py"], ∀ c ∈ path.toList, c.toNat ≠ 0 := by
  intro path hpath
  obtain rfl | hpath := List.mem_cons.mp hpath
  · exact noNul_of_all (by decide)
  · obtain rfl := List.mem_singleton.mp hpath
    exact noNul_of_all (by decide)

theorem nodup_two : ["cases/a.py", "cases/b.py"].Nodup := by decide

/-- Two cases. -/
def twoCases (a b : List UInt8) : ConfigCollection where
  projectConfig := []
  caseFiles := [⟨"cases/a.py", a⟩, ⟨"cases/b.py", b⟩]
  tracked := by
    simpa using tracked_two
  noNul := by
    intro f hf
    exact noNul_two f.path (List.mem_map_of_mem hf)
  nodup := nodup_two

/-- One case. -/
def oneCase (a : List UInt8) : ConfigCollection where
  projectConfig := []
  caseFiles := [⟨"cases/a.py", a⟩]
  tracked := by
    simpa using tracked_two.1
  noNul := by
    rintro f hf
    obtain rfl := List.mem_singleton.mp hf
    exact noNul_two _ (List.mem_cons_self ..)
  nodup := List.nodup_singleton _

theorem stream_ne_two : stream (twoCases [88] [89]) "main" "base" ≠
    stream (oneCase [88, 89]) "main" "base" := by
  have hne : ¬ (twoCases [88] [89]).files.Perm (oneCase [88, 89]).files :=
    fun h ↦ absurd h.length_eq (by decide)
  refine (stream_ne_iff hne).mpr ⟨?_, ?_⟩
  · refine not_overruns_of_text ?_
    decide +kernel
  · refine not_overruns_of_text ?_
    decide +kernel

/-- The content of one file goes on with a NUL, the path of another, a NUL and its content. -/
theorem stream_eq_spelled :
    ¬ (twoCases [88] [89]).files.Perm (oneCase ([88, 0] ++ encode "cases/b.py" ++ [0, 89])).files ∧
      stream (twoCases [88] [89]) "main" "base" =
        stream (oneCase ([88, 0] ++ encode "cases/b.py" ++ [0, 89])) "main" "base" := by
  constructor
  · intro h
    exact absurd h.length_eq (by decide)
  · decide +kernel

end Blackbase.Project.Fingerprint
