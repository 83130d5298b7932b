import Blackbase.Core.Toml.Spelling

/-!
# Documents of one array of tables

A document that is written as `[[name]]` blocks, with one line for each key and an empty line
between the blocks, is read as the array of the tables that were written.
-/

namespace Toml

variable {F : Type} (P : Floats F)

/-- `name = value`. -/
def line (e : String × Value F) : List Char := e.1.toList ++ ([' ', '=', ' '] ++ spell P e.2)

def header (name : String) : List Char := ['[', '['] ++ (name.toList ++ [']', ']'])

/-- A block: its header and the lines of its table. -/
def block (name : String) (items : Table F) : List Char :=
  joinWith ['\n'] (header name :: items.map (line P))

/-- Blocks with an empty line between them. -/
def blocks (name : String) (tables : List (Table F)) : List Char :=
  joinWith ['\n', '\n'] (tables.map (block P name)) ++ ['\n']

/-- A key that needs no quotes. -/
def Bare (name : String) : Prop := name ≠ "" ∧ ∀ c ∈ name.toList, isBareKeyChar c

theorem bare_of_all {name : String} (hne : name.toList ≠ [])
    (hall : name.toList.all isBareKeyChar) : Bare name :=
  ⟨fun h ↦ hne (by rw [h]; rfl), List.all_eq_true.mp hall⟩

/-- A table whose keys need no quotes, and whose values are read back. -/
structure PlainRow (items : Table F) : Prop where
  nodup : (items.map Prod.fst).Nodup
  bare : ∀ e ∈ items, Bare e.1
  plain : ∀ e ∈ items, e.2.Plain

/-! ## Lines with their ends -/

theorem joinWith_append_end (separator : List Char) {texts : List (List Char)} (h : texts ≠ []) :
    joinWith separator texts ++ separator = texts.flatMap (· ++ separator) := by
  induction texts with
  | nil => exact absurd rfl h
  | cons t rest ih =>
      cases rest with
      | nil => simp [joinWith]
      | cons u rest =>
          rw [joinWith, List.flatMap_cons, ← ih (List.cons_ne_nil _ _)]
          simp only [List.append_assoc]
          exact fun h ↦ absurd h (List.cons_ne_nil _ _)

/-- A block with the end of its last line. -/
theorem block_append_end (name : String) (items : Table F) :
    block P name items ++ ['\n'] =
      header name ++ '\n' :: items.flatMap fun e ↦ line P e ++ ['\n'] := by
  rw [block, joinWith_append_end _ (List.cons_ne_nil _ _), List.flatMap_cons, List.flatMap_map]
  simp

theorem blocks_cons (name : String) (items : Table F) (tables : List (Table F)) :
    blocks P name (items :: tables) = block P name items ++ '\n' ::
      if tables = [] then [] else '\n' :: blocks P name tables := by
  cases tables with
  | nil => rfl
  | cons t tables => simp [blocks, joinWith]

/-! ## Statements -/

theorem ne_of_isBareKeyChar {c : Char} (h : isBareKeyChar c) :
    isBlank c = false ∧ c ≠ '\n' ∧ c ≠ '[' ∧ c ≠ '"' := by
  refine ⟨?_, ?_, ?_, ?_⟩
  · by_contra hblank
    rw [Bool.not_eq_false] at hblank
    simp only [isBlank, Bool.or_eq_true, beq_iff_eq] at hblank
    rcases hblank with rfl | rfl <;> exact absurd h (by decide)
  all_goals
    rintro rfl
    exact absurd h (by decide)

theorem exists_of_bare {name : String} (h : Bare name) :
    ∃ c rest, name.toList = c :: rest ∧ isBareKeyChar c := by
  cases hname : name.toList with
  | nil => exact absurd (String.toList_eq_nil_iff.mp hname) h.1
  | cons c rest => exact ⟨c, rest, rfl, h.2 c (hname ▸ List.mem_cons_self)⟩

theorem key_bare {name : String} (h : Bare name) {rest : List Char}
    (hrest : ∀ c ∈ rest.head?, isBareKeyChar c = false) :
    key (name.toList ++ rest) = some (name, rest) := by
  obtain ⟨c, tail, hname, hc⟩ := exists_of_bare h
  obtain ⟨htake, hdrop⟩ := takeWhile_dropWhile_append h.2 hrest
  have hhead : (name.toList ++ rest).head? ≠ some '"' := by
    rw [hname]
    exact fun heq ↦ (ne_of_isBareKeyChar hc).2.2.2 (Option.some.inj heq)
  have hne : name.toList ≠ [] := by
    rw [hname]
    exact List.cons_ne_nil _ _
  rw [key, if_neg hhead, htake, hdrop, if_neg hne, String.ofList_toList]

variable (parseFloat : String → F)

theorem skipBlanks_bare {name : String} (h : Bare name) (rest : List Char) :
    skipBlanks (name.toList ++ rest) = name.toList ++ rest := by
  obtain ⟨c, tail, hname, hc⟩ := exists_of_bare h
  rw [hname]
  exact List.dropWhile_cons_of_neg (by simp [(ne_of_isBareKeyChar hc).1])

theorem statement_header {name : String} (h : Bare name) (rest : List Char) (d : Document F) :
    statement parseFloat (header name ++ rest) d = (d.addBlock name).map fun d ↦ (d, rest) := by
  have hkey : key (name.toList ++ ']' :: ']' :: rest) = some (name, ']' :: ']' :: rest) :=
    key_bare h fun c hc ↦ by
      rw [List.head?_cons, Option.mem_some_iff] at hc
      exact hc ▸ rfl
  have hblank : skipBlanks (']' :: ']' :: rest) = ']' :: ']' :: rest := rfl
  simp only [header, List.cons_append, List.append_assoc, List.nil_append, statement,
    skipBlanks_bare h, hkey, Option.bind_eq_bind, Option.bind_some, hblank]
  cases d.addBlock name <;> rfl

/-- A text that does not begin with a bracket is no header. -/
theorem statement_of_head? {text : List Char} (h : text.head? ≠ some '[') (d : Document F) :
    statement parseFloat text d = (key text).bind fun r ↦
      match skipBlanks r.2 with
      | '=' :: rest =>
          (value parseFloat ((skipBlanks rest).length + 1) (skipBlanks rest)).bind fun v ↦
            (d.assign r.1 v.1).bind fun d ↦ some (d, v.2)
      | _ => none := by
  unfold statement
  split
  · exact absurd rfl h
  · rfl

theorem statement_line {e : String × Value F} (h : Bare e.1) (hplain : e.2.Plain)
    (rest : List Char) (d : Document F) :
    statement P.parse (line P e ++ '\n' :: rest) d =
      (d.assign e.1 e.2).map fun d ↦ (d, '\n' :: rest) := by
  obtain ⟨c, tail, hname, hc⟩ := exists_of_bare h
  have hhead : (line P e ++ '\n' :: rest).head? ≠ some '[' := by
    rw [line, hname]
    exact fun heq ↦ (ne_of_isBareKeyChar hc).2.2.1 (Option.some.inj heq)
  have hkey : key (line P e ++ '\n' :: rest) =
      some (e.1, ' ' :: '=' :: ' ' :: (spell P e.2 ++ '\n' :: rest)) := by
    rw [line, List.append_assoc]
    simp only [List.cons_append, List.nil_append]
    refine key_bare h fun c hc ↦ ?_
    rw [List.head?_cons, Option.mem_some_iff] at hc
    exact hc ▸ rfl
  have hsign : skipBlanks (' ' :: '=' :: ' ' :: (spell P e.2 ++ '\n' :: rest)) =
      '=' :: ' ' :: (spell P e.2 ++ '\n' :: rest) := rfl
  have hblank : skipBlanks (' ' :: (spell P e.2 ++ '\n' :: rest)) = spell P e.2 ++ '\n' :: rest :=
    ((opens_spell P e.2).append _).skipBlanks
  rw [statement_of_head? _ hhead, hkey]
  simp only [Option.bind_some, hsign, hblank,
    value_spell P hplain (delimited_of_mem (c := '\n') (by decide) rest)]
  cases d.assign e.1 e.2 <;> rfl

/-! ## Documents -/

/-- With any amount of fuel that is more than the length of the text, the text makes one document
into another. -/
def Leads (text : List Char) (d d' : Document F) : Prop :=
  ∀ fuel, text.length < fuel → statements parseFloat fuel text d = some d'

variable {parseFloat}

theorem leads_nil (d : Document F) : Leads parseFloat [] d d := by
  intro fuel hfuel
  obtain ⟨fuel, rfl⟩ := Nat.exists_eq_add_one_of_ne_zero (Nat.ne_of_gt hfuel)
  rfl

theorem Leads.emptyLine {text : List Char} {d d' : Document F} (h : Leads parseFloat text d d') :
    Leads parseFloat ('\n' :: text) d d' := by
  intro fuel hfuel
  rw [List.length_cons] at hfuel
  obtain ⟨fuel, rfl⟩ := Nat.exists_eq_add_one_of_ne_zero (by omega : fuel ≠ 0)
  exact h fuel (by omega)

/-- A line is one statement. -/
theorem Leads.statement {text rest : List Char} {c : Char} {d d₁ d' : Document F}
    (hhead : text.head? = some c) (hblank : isBlank c = false) (hline : c ≠ '\n')
    (hstatement : statement parseFloat (text ++ '\n' :: rest) d = some (d₁, '\n' :: rest))
    (h : Leads parseFloat rest d₁ d') : Leads parseFloat (text ++ '\n' :: rest) d d' := by
  intro fuel hfuel
  rw [List.length_append, List.length_cons] at hfuel
  obtain ⟨fuel, rfl⟩ := Nat.exists_eq_add_one_of_ne_zero (by omega : fuel ≠ 0)
  obtain ⟨tail, rfl⟩ : ∃ tail, text = c :: tail := by
    cases text with
    | nil => exact absurd hhead (by simp)
    | cons c' tail => exact ⟨tail, by rw [Option.some.inj hhead]⟩
  have hskip : skipBlanks (c :: tail ++ '\n' :: rest) = c :: tail ++ '\n' :: rest :=
    List.dropWhile_cons_of_neg (by simp [hblank])
  have hend : endOfLine ('\n' :: rest) = some rest := rfl
  rw [statements, hskip]
  split
  · next heq => exact absurd heq (List.cons_ne_nil _ _)
  · next heq => exact absurd (List.cons.inj heq).1 hline
  · rw [hstatement]
    simp only [Option.bind_eq_bind, Option.bind_some, hend]
    exact h fuel (by omega)

/-- The lines of a table go into the table of the last header. -/
theorem leads_lines {name : String} {items done : Table F} {values : Table F}
    {older : List (String × Table F)} {rest : List Char} {d' : Document F}
    (hnodup : ((done ++ items).map Prod.fst).Nodup) (hbare : ∀ e ∈ items, Bare e.1)
    (hplain : ∀ e ∈ items, e.2.Plain)
    (h : Leads P.parse rest ⟨values, (name, done ++ items) :: older⟩ d') :
    Leads P.parse ((items.flatMap fun e ↦ line P e ++ ['\n']) ++ rest)
      ⟨values, (name, done) :: older⟩ d' := by
  induction items generalizing done with
  | nil =>
      rw [List.append_nil] at h
      exact h
  | cons e items ih =>
      have hmove : done ++ e :: items = done ++ [e] ++ items := by simp
      rw [hmove] at h hnodup
      have hrest := ih hnodup (fun e' he' ↦ hbare e' (List.mem_cons_of_mem _ he'))
        (fun e' he' ↦ hplain e' (List.mem_cons_of_mem _ he')) h
      have hfresh : e.1 ∉ done.map Prod.fst := by
        intro hmem
        rw [List.append_assoc, List.map_append] at hnodup
        exact List.disjoint_of_nodup_append hnodup hmem (by simp)
      have hassign : (⟨values, (name, done) :: older⟩ : Document F).assign e.1 e.2 =
          some ⟨values, (name, done ++ [e]) :: older⟩ := if_neg hfresh
      have hbe := hbare e List.mem_cons_self
      obtain ⟨c, tail, hname, hc⟩ := exists_of_bare hbe
      obtain ⟨hblank, hline, -, -⟩ := ne_of_isBareKeyChar hc
      have hhead : (line P e).head? = some c := by
        rw [line, hname]
        rfl
      rw [List.flatMap_cons, List.append_assoc, List.append_assoc]
      refine hrest.statement hhead hblank hline ?_
      rw [statement_line P hbe (hplain e List.mem_cons_self), hassign]
      rfl

/-- Blocks add their tables to the document. -/
theorem leads_blocks {name : String} (hname : Bare name) {tables : List (Table F)}
    (hne : tables ≠ []) (hrows : ∀ items ∈ tables, PlainRow items)
    (older : List (String × Table F)) :
    Leads P.parse (blocks P name tables) ⟨[], older⟩
      ⟨[], (tables.map fun items ↦ (name, items)).reverse ++ older⟩ := by
  induction tables generalizing older with
  | nil => exact absurd rfl hne
  | cons items tables ih =>
      have hrow := hrows items List.mem_cons_self
      have hrest : Leads P.parse (if tables = [] then [] else '\n' :: blocks P name tables)
          ⟨[], (name, items) :: older⟩
          ⟨[], ((items :: tables).map fun items ↦ (name, items)).reverse ++ older⟩ := by
        cases tables with
        | nil => exact leads_nil _
        | cons t tables =>
            have hmore := ih (List.cons_ne_nil _ _)
              (fun items' h ↦ hrows items' (List.mem_cons_of_mem _ h)) ((name, items) :: older)
            rw [if_neg (List.cons_ne_nil _ _), List.map_cons, List.reverse_cons, List.append_assoc]
            exact hmore.emptyLine
      have hlines : Leads P.parse ((items.flatMap fun e ↦ line P e ++ ['\n']) ++
          if tables = [] then [] else '\n' :: blocks P name tables)
          ⟨[], (name, []) :: older⟩
          ⟨[], ((items :: tables).map fun items ↦ (name, items)).reverse ++ older⟩ :=
        leads_lines P hrow.nodup hrow.bare hrow.plain hrest
      rw [blocks_cons, List.append_cons, block_append_end, List.append_assoc, List.cons_append]
      exact hlines.statement rfl rfl (by decide) (statement_header P.parse hname _ _)

theorem tablesOf_blocks (name : String) (tables : List (Table F)) :
    (⟨[], (tables.map fun items ↦ (name, items)).reverse⟩ : Document F).tablesOf name =
      tables.map .table := by
  have hall : (tables.map fun items ↦ (name, items)).filter (fun b ↦ b.1 = name) =
      tables.map fun items ↦ (name, items) := by
    refine List.filter_eq_self.mpr fun b hb ↦ ?_
    obtain ⟨items, -, rfl⟩ := List.mem_map.mp hb
    simp
  rw [Document.tablesOf, List.reverse_reverse, hall, List.map_map]
  rfl

/-- Blocks are read as the array of their tables. -/
theorem loads_blocks {name : String} (hname : Bare name) {tables : List (Table F)}
    (hne : tables ≠ []) (hrows : ∀ items ∈ tables, PlainRow items) :
    loads P.parse (String.ofList (blocks P name tables)) =
      some [(name, .array (tables.map .table))] := by
  have hleads := leads_blocks P hname hne hrows []
  rw [List.append_nil] at hleads
  have hnames : ((tables.map fun items ↦ (name, items)).reverse.map Prod.fst).dedup = [name] := by
    have hconst : (tables.map fun items ↦ (name, items)).reverse.map Prod.fst =
        List.replicate tables.length name := by
      rw [List.map_reverse, List.map_map]
      simp [Function.comp_def, List.map_const']
    rw [hconst]
    exact List.replicate_dedup (List.length_pos_iff.mpr hne).ne'
  have hread := hleads ((blocks P name tables).length + 1) (Nat.lt_succ_self _)
  rw [loads, String.toList_ofList]
  simp only [Document.empty, hread, Option.map_some, Document.toTable, hnames, List.nil_append,
    List.reverse_singleton, List.map_cons, List.map_nil, tablesOf_blocks]

end Toml
