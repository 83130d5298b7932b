import Blackbase.Types.Population

/-!
# Round trips of batches and populations

What a constructor has accepted is written by `as_dict` and read by `from_dict`.  The arrays of a
population without candidates, and the matrix of a batch without candidates, lose every dimension
behind the empty one; the objectives then become a column, the matrix one without columns.
-/

namespace Blackbase.Types

open Attempt
open Project.Envelope (PyFloat)

variable {P : ProtocolTypes}

/-! ## Lists of attempts -/

section Lists

variable {ε : Type} {α β γ : Type}

theorem mapM_eq_ok_iff {f : α → Except ε β} {l : List α} {l' : List β} :
    l.mapM f = .ok l' ↔ List.Forall₂ (fun a b ↦ f a = .ok b) l l' := by
  refine ⟨fun h ↦ ?_, mapM_eq_ok⟩
  induction l generalizing l' with
  | nil =>
      cases h
      exact List.Forall₂.nil
  | cons a rest ih =>
      rw [List.mapM_cons] at h
      cases hfirst : f a with
      | error e =>
          rw [hfirst] at h
          cases h
      | ok b =>
          cases hrest : rest.mapM f with
          | error e =>
              rw [hfirst, hrest] at h
              cases h
          | ok bs =>
              rw [hfirst, hrest] at h
              cases h
              exact List.Forall₂.cons hfirst (ih hrest)

theorem mapM_congr {f g : α → Except ε β} {l : List α} (h : ∀ a ∈ l, f a = g a) :
    l.mapM f = l.mapM g := by
  induction l with
  | nil => rfl
  | cons a rest ih =>
      rw [List.mapM_cons, List.mapM_cons, h a List.mem_cons_self,
        ih fun b hb ↦ h b (List.mem_cons_of_mem _ hb)]

theorem mapM_eq_self_iff {f : α → Except ε α} {l : List α} :
    l.mapM f = .ok l ↔ ∀ a ∈ l, f a = .ok a := by
  rw [mapM_eq_ok_iff, List.forall₂_same]

theorem bind_eq_ok_iff {x : Except ε α} {f : α → Except ε β} {b : β} :
    (x >>= f) = .ok b ↔ ∃ a, x = .ok a ∧ f a = .ok b := by
  cases x with
  | error e =>
      refine iff_of_false (fun h ↦ by cases h) ?_
      rintro ⟨a, ha, -⟩
      cases ha
  | ok a =>
      constructor
      · exact fun h ↦ ⟨a, rfl, h⟩
      · rintro ⟨a', ha, h⟩
        cases ha
        exact h

/-- Two maps, one after the other. -/
theorem mapM_mapM_eq_ok_iff {f : α → Except ε β} {g : β → Except ε γ} {l : List α}
    {l' : List γ} : (l.mapM f >>= fun l ↦ l.mapM g) = .ok l' ↔
      List.Forall₂ (fun a c ↦ (f a >>= g) = .ok c) l l' := by
  rw [bind_eq_ok_iff]
  simp only [mapM_eq_ok_iff]
  induction l generalizing l' with
  | nil =>
      constructor
      · rintro ⟨bs, hbs, hcs⟩
        cases hbs
        cases hcs
        exact List.Forall₂.nil
      · rintro h
        cases h
        exact ⟨[], List.Forall₂.nil, List.Forall₂.nil⟩
  | cons a rest ih =>
      constructor
      · rintro ⟨bs, hbs, hcs⟩
        cases hbs with
        | cons ha hrest =>
            cases hcs with
            | cons hb hrest' =>
                exact List.Forall₂.cons (bind_eq_ok_iff.mpr ⟨_, ha, hb⟩)
                  (ih.mp ⟨_, hrest, hrest'⟩)
      · rintro h
        cases h with
        | cons hfirst hrest =>
            obtain ⟨b, ha, hb⟩ := bind_eq_ok_iff.mp hfirst
            obtain ⟨bs, hbs, hcs⟩ := ih.mpr hrest
            exact ⟨b :: bs, List.Forall₂.cons ha hbs, List.Forall₂.cons hb hcs⟩

end Lists

/-! ## Metadata and tokens -/

theorem recoded_add (m n : ℕ) (metadata : Metadata P) :
    recoded P (m + n) metadata = recoded P m metadata >>= recoded P n := by
  induction m generalizing metadata with
  | zero =>
      rw [Nat.zero_add]
      rfl
  | succ m ih =>
      rw [Nat.succ_add, recoded, recoded]
      cases canonical P metadata with
      | error e => rfl
      | ok metadata' => exact ih metadata'

theorem normalizeToken_normalizeToken (token : Option String) :
    normalizeToken (normalizeToken token) = normalizeToken token := by
  cases token with
  | none => rfl
  | some s =>
      by_cases hempty : Text.strip s = ""
      · simp [normalizeToken, Option.filter, hempty]
      · simp [normalizeToken, Option.filter, hempty]

/-- Tokens that belong to so many candidates. -/
structure TokensAligned (count : ℕ) (tokens : List (Option String)) : Prop where
  length : tokens.length = count
  normal : ∀ token ∈ tokens, normalizeToken token = token

theorem alignTokens_spec (misaligned : TypesError) (count : ℕ) (tokens : List (Option String)) :
    Ends (TokensAligned count) (fun _ ↦ True) (alignTokens misaligned count tokens) := by
  unfold alignTokens
  dsimp only
  split_ifs with hempty hlength
  · trivial
  · refine ⟨?_, fun token htoken ↦ ?_⟩
    · rw [List.length_map]
      exact not_not.mp hlength
    · obtain ⟨token, -, rfl⟩ := List.mem_map.mp htoken
      exact normalizeToken_normalizeToken token
  · trivial
  · rename_i hlength
    refine ⟨?_, fun token htoken ↦ ?_⟩
    · rw [List.length_map]
      exact not_not.mp hlength
    · obtain ⟨token, -, rfl⟩ := List.mem_map.mp htoken
      exact normalizeToken_normalizeToken token

theorem TokensAligned.again {count : ℕ} {tokens : List (Option String)}
    (h : TokensAligned count tokens) (misaligned : TypesError) :
    alignTokens misaligned count tokens = .ok tokens := by
  have hsame : (if tokens = [] then List.replicate count none else tokens) = tokens := by
    split_ifs with hempty
    · rw [← h.length, hempty]
      rfl
    · rfl
  unfold alignTokens
  rw [hsame]
  dsimp only
  rw [if_neg (not_not.mpr h.length), List.map_congr_left h.normal, List.map_id']

/-! ## States -/

theorem readArray_tolist (a : NdArray PyFloat) : readArray a.tolist = .ok a.reread := by
  rw [readArray, NdArray.asarray_tolist]
  rfl

/-- The state with other values and what its metadata become. -/
def recodedState (s : UnknownState P) (values : NdArray PyFloat) :
    Except TypesError (UnknownState P) :=
  (recoded P 2 s.metadata).map fun metadata ↦ ⟨values, metadata⟩

theorem canonical_canonical (metadata : Metadata P) (values : NdArray PyFloat) :
    (do
      let metadata ← canonical P metadata
      UnknownState.make P values metadata) =
      (recoded P 2 metadata).map fun metadata ↦ ⟨values, metadata⟩ := by
  rw [recoded]
  cases canonical P metadata with
  | error e => rfl
  | ok metadata' =>
      show UnknownState.make P values metadata' = (recoded P 1 metadata').map _
      rw [UnknownState.make, recoded]
      cases canonical P metadata' with
      | error e => rfl
      | ok metadata'' => rfl

theorem fromProtocolPayload_asDict (s : UnknownState P) :
    UnknownState.fromProtocolPayload P s.asDict = recodedState s s.values.reread := by
  rw [UnknownState.fromProtocolPayload, UnknownState.asDict, readArray_tolist]
  exact canonical_canonical s.metadata s.values.reread

theorem encode_asDict (s : UnknownState P) : s.asDict.encode = s.asDict := by
  rw [StatePayload.encode, UnknownState.asDict, encodeEntries_wire]

theorem recodedState_eq_iff (s : UnknownState P) (values : NdArray PyFloat) :
    recodedState s values = .ok s ↔
      values = s.values ∧ recoded P 2 s.metadata = .ok s.metadata := by
  unfold recodedState
  cases recoded P 2 s.metadata with
  | error e => exact iff_of_false (fun h ↦ by cases h) fun h ↦ by cases h.2
  | ok metadata =>
      cases s with
      | mk v m => simp [Except.map]

/-! ## Batches -/

namespace CandidateBatch

/-- States that agree with the rows of a matrix from an index on. -/
def RowsMatch (matrix : NdArray PyFloat) : ℕ → List (UnknownState P) → Prop
  | _, [] => True
  | index, s :: rest =>
      (s.values.shape = [matrix.width] ∧
        NdArray.sameElements s.values.data (matrix.rowData index) = true) ∧
        RowsMatch matrix (index + 1) rest

theorem detach_spec (matrix : NdArray PyFloat) (index : ℕ) (s : UnknownState P) :
    Ends (fun s' ↦ s'.values.shape = [matrix.width] ∧
        NdArray.sameElements s'.values.data (matrix.rowData index) = true) (fun _ ↦ True)
      (detach P matrix index s) := by
  unfold detach
  dsimp only
  split_ifs with hsize hrow
  · trivial
  · trivial
  · rw [canonical_canonical]
    cases recoded P 2 s.metadata with
    | error e => trivial
    | ok metadata =>
        refine ⟨?_, (Bool.not_eq_false _).mp hrow⟩
        exact congrArg (fun n ↦ [n]) (not_not.mp hsize)

theorem detachAll_spec (matrix : NdArray PyFloat) (states : List (UnknownState P)) :
    ∀ index, Ends (fun states' ↦ RowsMatch matrix index states' ∧ states'.length = states.length)
      (fun _ ↦ True) (detachAll P matrix index states) := by
  induction states with
  | nil => exact fun _ ↦ ⟨trivial, rfl⟩
  | cons s rest ih =>
      intro index
      rw [detachAll]
      refine (detach_spec matrix index s).bind fun s' hs' ↦ ?_
      refine (ih (index + 1)).bind fun rest' hrest' ↦ ?_
      exact ⟨⟨hs', hrest'.1⟩, congrArg Nat.succ hrest'.2⟩

theorem flat_eq {values : NdArray PyFloat} {n : ℕ} (h : values.shape = [n]) :
    values.flat = values := by
  refine NdArray.ext ?_ rfl
  have hlength := values.length_data
  rw [h, List.prod_singleton] at hlength
  rw [h, ← hlength]
  rfl

/-- States that agree with their rows are only recoded. -/
theorem detachAll_eq (matrix : NdArray PyFloat) (states : List (UnknownState P)) :
    ∀ index, RowsMatch matrix index states →
      detachAll P matrix index states = states.mapM fun s ↦ recodedState s s.values := by
  induction states with
  | nil => exact fun _ _ ↦ rfl
  | cons s rest ih =>
      rintro index ⟨⟨hshape, hrow⟩, hrest⟩
      have hflat := flat_eq hshape
      have hsize : s.values.size = matrix.width := by
        rw [NdArray.size, s.values.length_data, hshape, List.prod_singleton]
      have hdetach : detach P matrix index s = recodedState s s.values := by
        unfold detach
        rw [hflat]
        dsimp only
        rw [if_neg (not_not.mpr hsize), hrow, if_neg Bool.noConfusion]
        exact canonical_canonical s.metadata s.values
      rw [detachAll, List.mapM_cons, hdetach, ih (index + 1) hrest]

theorem recodedState_values {s s' : UnknownState P} {values : NdArray PyFloat}
    (h : recodedState s values = .ok s') : s'.values = values := by
  unfold recodedState at h
  cases hrecoded : recoded P 2 s.metadata with
  | error e =>
      rw [hrecoded] at h
      cases h
  | ok metadata =>
      rw [hrecoded] at h
      cases h
      rfl

theorem rowsMatch_recoded {matrix : NdArray PyFloat} {states states' : List (UnknownState P)}
    (h : List.Forall₂ (fun s s' ↦ recodedState s s.values = .ok s') states states') :
    ∀ index, RowsMatch matrix index states → RowsMatch matrix index states' := by
  induction h with
  | nil => exact fun _ h ↦ h
  | cons hs _ ih =>
      rintro index ⟨hrow, hrest⟩
      refine ⟨?_, ih (index + 1) hrest⟩
      rw [recodedState_values hs]
      exact hrow

/-- What the constructor has checked. -/
structure Aligned (x : CandidateBatch P) : Prop where
  shape : x.numericMatrix.shape = [x.semanticStates.length, x.numericMatrix.width]
  rows : RowsMatch x.numericMatrix 0 x.semanticStates
  tokens : TokensAligned x.semanticStates.length x.candidateTokens

theorem shape_of_ndim {a : NdArray PyFloat} (h : a.ndim = 2) : a.shape = [a.rows, a.width] := by
  unfold NdArray.ndim at h
  match hshape : a.shape, h with
  | [m, n], _ => simp [NdArray.rows, NdArray.width, hshape]

theorem make_spec (states : List (UnknownState P)) (matrix : NdArray PyFloat)
    (tokens : List (Option String)) :
    Ends Aligned (fun _ ↦ True) (make P states matrix tokens) := by
  unfold make
  dsimp only
  by_cases hdim : (asMatrix matrix).ndim ≠ 2
  · rw [if_pos hdim]
    trivial
  rw [if_neg hdim]
  by_cases hrows : (asMatrix matrix).rows ≠ states.length
  · rw [if_pos hrows]
    trivial
  · rw [if_neg hrows]
    refine (detachAll_spec (asMatrix matrix) states 0).bind fun states' hstates' ↦ ?_
    refine (alignTokens_spec .batchTokens states.length tokens).bind fun tokens' htokens' ↦ ?_
    refine ⟨?_, hstates'.1, hstates'.2.symm ▸ htokens'⟩
    show (asMatrix matrix).shape = [states'.length, (asMatrix matrix).width]
    rw [shape_of_ndim (not_not.mp hdim), not_not.mp hrows, hstates'.2]

theorem Aligned.make {x : CandidateBatch P} (h : x.Aligned) :
    CandidateBatch.make P x.semanticStates x.numericMatrix x.candidateTokens =
      (x.semanticStates.mapM fun s ↦ recodedState s s.values).map
        fun states ↦ ⟨states, x.numericMatrix, x.candidateTokens⟩ := by
  have hdim : x.numericMatrix.ndim = 2 := by
    rw [NdArray.ndim, h.shape]
    rfl
  have hmatrix : asMatrix x.numericMatrix = x.numericMatrix := by
    rw [asMatrix, hdim]
    rfl
  have hrows : x.numericMatrix.rows = x.semanticStates.length := by
    rw [NdArray.rows, h.shape]
    rfl
  unfold CandidateBatch.make
  dsimp only
  rw [hmatrix, if_neg (not_not.mpr hdim), if_neg (not_not.mpr hrows),
    detachAll_eq _ _ 0 h.rows, h.tokens.again]
  cases x.semanticStates.mapM fun s ↦ recodedState s s.values with
  | error e => rfl
  | ok states => rfl

theorem fromDict_asDict (x : CandidateBatch P) : fromDict P x.asDict =
    (x.semanticStates.mapM fun s ↦ recodedState s s.values.reread) >>= fun states ↦
      CandidateBatch.make P states x.numericMatrix.reread x.candidateTokens := by
  have hstates : (x.semanticStates.map UnknownState.asDict).mapM
      (UnknownState.fromProtocolPayload P) =
      x.semanticStates.mapM fun s ↦ recodedState s s.values.reread := by
    rw [List.mapM_map]
    congr 1
    funext s
    exact fromProtocolPayload_asDict s
  show ((x.semanticStates.map UnknownState.asDict).mapM (UnknownState.fromProtocolPayload P) >>=
    fun states ↦ readArray x.numericMatrix.tolist >>= fun matrix ↦
      CandidateBatch.make P states matrix x.candidateTokens) = _
  rw [hstates, readArray_tolist]
  rfl

theorem RowsMatch.shape {matrix : NdArray PyFloat} {states : List (UnknownState P)} :
    ∀ {index}, RowsMatch matrix index states → ∀ s ∈ states, s.values.shape = [matrix.width] := by
  induction states with
  | nil => exact fun _ _ hs ↦ absurd hs List.not_mem_nil
  | cons s rest ih =>
      rintro index ⟨hrow, hrest⟩ s' hs'
      rcases List.mem_cons.mp hs' with rfl | hmem
      · exact hrow.1
      · exact ih hrest s' hmem

theorem emptyLast_singleton (n : ℕ) : NdArray.EmptyLast [n] := by
  cases n with
  | zero => rfl
  | succ n => trivial

/-- The states come back with their metadata recoded. -/
theorem Aligned.states_reread {x : CandidateBatch P} (h : x.Aligned) :
    (x.semanticStates.mapM fun s ↦ recodedState s s.values.reread) =
      x.semanticStates.mapM fun s ↦ recodedState s s.values := by
  have hsame : ∀ s ∈ x.semanticStates, s.values.reread = s.values := by
    intro s hs
    rw [NdArray.reread_eq_iff, h.rows.shape s hs]
    exact emptyLast_singleton _
  exact mapM_congr fun s hs ↦ by rw [hsame s hs]

/-- A batch that comes back from the wire: without candidates it has no columns, and encoding and
decoding leave the metadata of its states as they are. -/
structure Keeps (x : CandidateBatch P) : Prop where
  width : x.semanticStates = [] → x.numericMatrix.width = 0
  metadata : ∀ s ∈ x.semanticStates, recoded P 4 s.metadata = .ok s.metadata

theorem recodedState_twice (s : UnknownState P) :
    (recodedState s s.values >>= fun s ↦ recodedState s s.values) =
      (recoded P 4 s.metadata).map fun metadata ↦ ⟨s.values, metadata⟩ := by
  rw [show (4 : ℕ) = 2 + 2 from rfl, recoded_add]
  unfold recodedState
  cases recoded P 2 s.metadata with
  | error e => rfl
  | ok metadata => rfl

theorem twice_eq_iff (s : UnknownState P) :
    (recodedState s s.values >>= fun s ↦ recodedState s s.values) = .ok s ↔
      recoded P 4 s.metadata = .ok s.metadata := by
  rw [recodedState_twice]
  cases recoded P 4 s.metadata with
  | error e => exact iff_of_false (fun h ↦ by cases h) fun h ↦ by cases h
  | ok metadata =>
      cases s with
      | mk v m => simp [Except.map]

theorem Aligned.reread_matrix {x : CandidateBatch P} (h : x.Aligned)
    (hstates : x.semanticStates ≠ []) : x.numericMatrix.reread = x.numericMatrix := by
  rw [NdArray.reread_eq_iff, h.shape]
  obtain ⟨n, hn⟩ := Nat.exists_eq_succ_of_ne_zero fun h0 ↦
    hstates (List.length_eq_zero_iff.mp h0)
  rw [hn]
  exact emptyLast_singleton _

/-- Without candidates the matrix that is read has neither rows nor columns. -/
theorem Aligned.fromDict_nil {x : CandidateBatch P} (h : x.Aligned)
    (hstates : x.semanticStates = []) :
    fromDict P x.asDict = .ok ⟨[], .empty, x.candidateTokens⟩ := by
  have hshape := h.shape
  rw [hstates] at hshape
  have hdata : x.numericMatrix.data = [] := by
    have hlength := x.numericMatrix.length_data
    rw [hshape] at hlength
    exact List.length_eq_zero_iff.mp (hlength.trans (by simp))
  have hmatrix : asMatrix x.numericMatrix.reread = .empty := by
    have hdim : x.numericMatrix.reread.ndim = 1 := by
      show (NdArray.upToEmpty x.numericMatrix.shape).length = 1
      rw [hshape]
      rfl
    have hsize : x.numericMatrix.reread.size = 0 := by
      show x.numericMatrix.data.length = 0
      rw [hdata]
      rfl
    rw [asMatrix, if_pos hdim, if_neg (not_not.mpr hsize)]
  have htokens := h.tokens
  rw [hstates] at htokens
  rw [fromDict_asDict, hstates]
  show CandidateBatch.make P [] x.numericMatrix.reread x.candidateTokens = _
  unfold CandidateBatch.make
  rw [hmatrix]
  show (alignTokens .batchTokens 0 x.candidateTokens >>= fun tokens ↦ _) = _
  rw [show alignTokens .batchTokens 0 x.candidateTokens = .ok x.candidateTokens from
    htokens.again _]
  rfl

theorem Aligned.round_trip_iff {x : CandidateBatch P} (h : x.Aligned) :
    fromDict P x.asDict = .ok x ↔ x.Keeps := by
  by_cases hstates : x.semanticStates = []
  · rw [h.fromDict_nil hstates]
    have hshape := h.shape
    rw [hstates] at hshape
    constructor
    · intro hok
      have hx := Except.ok.inj hok
      refine ⟨fun _ ↦ ?_, fun s hs ↦ ?_⟩
      · rw [← hx]
        rfl
      · rw [hstates] at hs
        cases hs
    · intro hkeeps
      have hmatrix : NdArray.empty = x.numericMatrix := by
        refine NdArray.ext ?_ ?_
        · rw [hshape, hkeeps.width hstates]
          rfl
        · have hlength := x.numericMatrix.length_data
          rw [hshape] at hlength
          exact (List.length_eq_zero_iff.mp (hlength.trans (by simp))).symm
      cases x with
      | mk states matrix tokens =>
          obtain rfl : states = [] := hstates
          obtain rfl : NdArray.empty = matrix := hmatrix
          rfl
  · rw [fromDict_asDict, h.states_reread, h.reread_matrix hstates]
    have hmake : ∀ states', (x.semanticStates.mapM fun s ↦ recodedState s s.values) =
        .ok states' → CandidateBatch.make P states' x.numericMatrix x.candidateTokens =
          (states'.mapM fun s ↦ recodedState s s.values).map
            fun states ↦ ⟨states, x.numericMatrix, x.candidateTokens⟩ := by
      intro states' hstates'
      have hforall := mapM_eq_ok_iff.mp hstates'
      have hlength : x.semanticStates.length = states'.length := hforall.length_eq
      refine Aligned.make (x := ⟨states', x.numericMatrix, x.candidateTokens⟩) ⟨?_, ?_, ?_⟩
      · exact h.shape.trans (by rw [hlength])
      · exact rowsMatch_recoded hforall 0 h.rows
      · exact hlength ▸ h.tokens
    have htwice : ((x.semanticStates.mapM fun s ↦ recodedState s s.values) >>= fun states' ↦
        CandidateBatch.make P states' x.numericMatrix x.candidateTokens) = .ok x ↔
        ((x.semanticStates.mapM fun s ↦ recodedState s s.values) >>= fun states' ↦
          states'.mapM fun s ↦ recodedState s s.values) = .ok x.semanticStates := by
      rw [bind_eq_ok_iff, bind_eq_ok_iff]
      refine exists_congr fun states' ↦ and_congr_right fun hstates' ↦ ?_
      rw [hmake states' hstates']
      cases states'.mapM fun s ↦ recodedState s s.values with
      | error e => exact iff_of_false (fun h ↦ by cases h) fun h ↦ by cases h
      | ok states =>
          cases x with
          | mk states matrix tokens => simp [Except.map]
    rw [htwice, mapM_mapM_eq_ok_iff, List.forall₂_same]
    simp only [twice_eq_iff]
    constructor
    · exact fun hmetadata ↦ ⟨fun hnil ↦ absurd hnil hstates, hmetadata⟩
    · exact fun hkeeps ↦ hkeeps.metadata

end CandidateBatch

/-! ## Populations -/

namespace PopulationSnapshot

/-- What the constructor has checked. -/
structure Checked (x : PopulationSnapshot P) : Prop where
  objectives : x.objectives.shape = [x.candidates.length, x.objectives.width]
  constraints : ∀ a, x.constraints = some a → a.ndim ≠ 0 ∧ a.rows = x.candidates.length
  tokens : TokensAligned x.candidates.length x.candidateTokens

theorem checkConstraints_spec (count : ℕ) (a : NdArray PyFloat) :
    Ends (fun a' ↦ a'.ndim ≠ 0 ∧ a'.rows = count) (fun _ ↦ True) (checkConstraints count a) := by
  unfold checkConstraints
  dsimp only
  by_cases hdim : a.ndim = 0
  · rw [if_pos hdim]
    split_ifs with hrows
    · trivial
    · exact ⟨Nat.one_ne_zero, not_not.mp hrows⟩
  · rw [if_neg hdim]
    split_ifs with hrows
    · trivial
    · exact ⟨hdim, not_not.mp hrows⟩

theorem make_spec (candidates : List (UnknownState P)) (objectives : NdArray PyFloat)
    (constraints : Option (NdArray PyFloat)) (tokens : List (Option String)) (generation : ℤ)
    (timestamp : PyFloat) (metadata : Metadata P) :
    Ends Checked (fun _ ↦ True)
      (make P candidates objectives constraints tokens generation timestamp metadata) := by
  unfold make
  dsimp only
  by_cases hbad : (asObjectives candidates.length objectives).ndim ≠ 2 ∨
      (asObjectives candidates.length objectives).rows ≠ candidates.length
  · rw [if_pos hbad]
    trivial
  rw [if_neg hbad]
  push Not at hbad
  refine (alignTokens_spec .snapshotTokens candidates.length tokens).bind fun tokens' htokens' ↦ ?_
  have hconstraints : Ends (fun constraints' : Option (NdArray PyFloat) ↦
      ∀ a, constraints' = some a → a.ndim ≠ 0 ∧ a.rows = candidates.length) (fun _ ↦ True)
      (constraints.mapM (checkConstraints candidates.length)) := by
    cases constraints with
    | none =>
        intro a ha
        cases ha
    | some a =>
        refine (checkConstraints_spec candidates.length a).bind fun a' ha' b hb ↦ ?_
        cases hb
        exact ha'
  refine hconstraints.bind fun constraints' hconstraints' ↦ ?_
  refine (ends_true (canonical P metadata)).bind fun metadata' _ ↦ ?_
  refine ⟨?_, hconstraints', htokens'⟩
  show (asObjectives candidates.length objectives).shape =
    [candidates.length, (asObjectives candidates.length objectives).width]
  rw [CandidateBatch.shape_of_ndim hbad.1, hbad.2]

/-- The objectives that are read back. -/
def objectivesReread (x : PopulationSnapshot P) : NdArray PyFloat :=
  asObjectives x.candidates.length x.objectives.reread

variable {x : PopulationSnapshot P}

/-- The objectives come back, unless there are none and they were no column. -/
theorem Checked.objectives_eq_iff (h : x.Checked) : x.objectivesReread = x.objectives ↔
    (x.candidates = [] → x.objectives.width = 1) := by
  by_cases hnone : x.candidates = []
  · have hshape := h.objectives
    rw [hnone] at hshape
    have hdata : x.objectives.data = [] := by
      have hlength := x.objectives.length_data
      rw [hshape] at hlength
      exact List.length_eq_zero_iff.mp (hlength.trans (by simp))
    have hcolumn : x.objectivesReread = x.objectives.reread.asColumn := by
      have hdim : x.objectives.reread.ndim = 1 := by
        show (NdArray.upToEmpty x.objectives.shape).length = 1
        rw [hshape]
        rfl
      unfold objectivesReread asObjectives
      rw [if_pos hdim, hnone]
      rfl
    have hshape' : x.objectives.reread.asColumn.shape = [0, 1] := by
      show [x.objectives.data.length, 1] = [0, 1]
      rw [hdata]
      rfl
    rw [hcolumn]
    constructor
    · intro heq _
      rw [← heq]
      show x.objectives.reread.asColumn.shape.getD 1 0 = 1
      rw [hshape']
      rfl
    · intro hwidth
      refine NdArray.ext ?_ rfl
      rw [hshape', hshape, hwidth hnone]
      rfl
  · refine iff_of_true ?_ fun hnil ↦ absurd hnil hnone
    have hreread : x.objectives.reread = x.objectives := by
      rw [NdArray.reread_eq_iff, h.objectives]
      obtain ⟨n, hn⟩ := Nat.exists_eq_succ_of_ne_zero fun h0 ↦
        hnone (List.length_eq_zero_iff.mp h0)
      rw [hn]
      exact CandidateBatch.emptyLast_singleton _
    have hdim : x.objectives.ndim ≠ 1 := by
      rw [NdArray.ndim, h.objectives]
      exact Nat.succ_succ_ne_one 0
    rw [objectivesReread, hreread, asObjectives, if_neg hdim]

/-- They pass the check of the constructor again. -/
theorem Checked.objectives_again (h : x.Checked) :
    ¬ (x.objectivesReread.ndim ≠ 2 ∨ x.objectivesReread.rows ≠ x.candidates.length) := by
  rw [not_or, not_not, not_not]
  by_cases hnone : x.candidates = []
  · have hshape := h.objectives
    rw [hnone] at hshape
    have hdim : x.objectives.reread.ndim = 1 := by
      show (NdArray.upToEmpty x.objectives.shape).length = 1
      rw [hshape]
      rfl
    have hlength : x.objectives.data.length = 0 := by
      rw [x.objectives.length_data, hshape]
      simp
    unfold objectivesReread asObjectives
    rw [if_pos hdim, hnone]
    exact ⟨rfl, hlength⟩
  · rw [h.objectives_eq_iff.mpr fun hnil ↦ absurd hnil hnone]
    refine ⟨?_, ?_⟩
    · rw [NdArray.ndim, h.objectives]
      rfl
    · rw [NdArray.rows, h.objectives]
      rfl

theorem upToEmpty_head (s : List ℕ) :
    (NdArray.upToEmpty s).headD 0 = s.headD 0 ∧ (NdArray.upToEmpty s = [] → s = []) := by
  match s with
  | [] => exact ⟨rfl, fun _ ↦ rfl⟩
  | 0 :: rest => exact ⟨rfl, fun h ↦ by cases h⟩
  | (n + 1) :: rest => exact ⟨rfl, fun h ↦ by cases h⟩

/-- The constraints that are read back pass their check. -/
theorem Checked.constraints_again (h : x.Checked) :
    (x.constraints.map NdArray.reread).mapM (checkConstraints x.candidates.length) =
      .ok (x.constraints.map NdArray.reread) := by
  cases hconstraints : x.constraints with
  | none => rfl
  | some a =>
      obtain ⟨hdim, hrows⟩ := h.constraints a hconstraints
      have hdim' : a.reread.ndim ≠ 0 := fun h0 ↦
        hdim (List.length_eq_zero_iff.mpr
          ((upToEmpty_head a.shape).2 (List.length_eq_zero_iff.mp h0)))
      have hrows' : a.reread.rows = x.candidates.length :=
        (upToEmpty_head a.shape).1.trans hrows
      have hcheck : checkConstraints x.candidates.length a.reread = .ok a.reread := by
        unfold checkConstraints
        rw [if_neg hdim']
        dsimp only
        rw [if_neg (not_not.mpr hrows')]
      show (checkConstraints x.candidates.length a.reread >>= fun a ↦ pure (some a)) = _
      rw [hcheck]
      rfl

theorem fromDict_asDict (x : PopulationSnapshot P) : fromDict P x.asDict =
    (x.candidates.mapM fun c ↦ recodedState c c.values.reread) >>= fun candidates ↦
      canonical P x.metadata >>= fun metadata ↦
        make P candidates x.objectives.reread (x.constraints.map NdArray.reread)
          x.candidateTokens x.generation x.timestamp metadata := by
  have hcandidates : (x.candidates.map fun c ↦ c.asDict.encode).mapM
      (UnknownState.fromProtocolPayload P) =
      x.candidates.mapM fun c ↦ recodedState c c.values.reread := by
    rw [List.mapM_map]
    congr 1
    funext c
    show UnknownState.fromProtocolPayload P c.asDict.encode = _
    rw [encode_asDict, fromProtocolPayload_asDict]
  have hconstraints : (x.constraints.map NdArray.tolist).mapM readArray =
      .ok (x.constraints.map NdArray.reread) := by
    cases x.constraints with
    | none => rfl
    | some a =>
        show (readArray a.tolist >>= fun a ↦ pure (some a)) = _
        rw [readArray_tolist]
        rfl
  show ((x.candidates.map fun c ↦ c.asDict.encode).mapM (UnknownState.fromProtocolPayload P) >>=
    fun candidates ↦ readArray x.objectives.tolist >>= fun objectives ↦
      (x.constraints.map NdArray.tolist).mapM readArray >>= fun constraints ↦
        canonical P x.metadata >>= fun metadata ↦
          make P candidates objectives constraints x.candidateTokens x.generation
            (x.timestamp.orElse .zero) metadata) = _
  rw [hcandidates, hconstraints, readArray_tolist, PyFloat.orElse_zero]
  rfl

/-- What the constructor makes of candidates that replace those of a population. -/
theorem Checked.make_reread (h : x.Checked) {candidates : List (UnknownState P)}
    (hlength : candidates.length = x.candidates.length) (metadata : Metadata P) :
    make P candidates x.objectives.reread (x.constraints.map NdArray.reread) x.candidateTokens
        x.generation x.timestamp metadata =
      (canonical P metadata).map fun metadata ↦ ⟨candidates, x.objectivesReread,
        x.constraints.map NdArray.reread, x.candidateTokens, x.generation, x.timestamp,
        metadata⟩ := by
  unfold make
  dsimp only
  rw [hlength]
  show (if x.objectivesReread.ndim ≠ 2 ∨ x.objectivesReread.rows ≠ x.candidates.length then _
    else _) = _
  rw [if_neg h.objectives_again, h.tokens.again, h.constraints_again]
  cases canonical P metadata with
  | error e => rfl
  | ok metadata => rfl

/-- A population that comes back from the wire: no array has a dimension behind an empty one, the
objectives of no candidates are a column, and encoding and decoding leave the metadata as they
are. -/
structure Keeps (x : PopulationSnapshot P) : Prop where
  values : ∀ c ∈ x.candidates, NdArray.EmptyLast c.values.shape
  candidateMetadata : ∀ c ∈ x.candidates, recoded P 2 c.metadata = .ok c.metadata
  objectives : x.candidates = [] → x.objectives.width = 1
  constraints : ∀ a, x.constraints = some a → NdArray.EmptyLast a.shape
  metadata : recoded P 2 x.metadata = .ok x.metadata

theorem constraints_eq_iff : x.constraints.map NdArray.reread = x.constraints ↔
    ∀ a, x.constraints = some a → NdArray.EmptyLast a.shape := by
  cases x.constraints with
  | none => simp
  | some a => simp [NdArray.reread_eq_iff]

theorem Checked.round_trip_iff (h : x.Checked) : fromDict P x.asDict = .ok x ↔ x.Keeps := by
  have hparts : fromDict P x.asDict = .ok x ↔
      (x.candidates.mapM fun c ↦ recodedState c c.values.reread) = .ok x.candidates ∧
      x.objectivesReread = x.objectives ∧ x.constraints.map NdArray.reread = x.constraints ∧
      recoded P 2 x.metadata = .ok x.metadata := by
    rw [fromDict_asDict, bind_eq_ok_iff]
    have hmetadata : recoded P 2 x.metadata = canonical P x.metadata >>= canonical P := by
      rw [show (2 : ℕ) = 1 + 1 from rfl, recoded_add]
      have hone : recoded P 1 = canonical P := by
        funext metadata
        rw [recoded]
        cases canonical P metadata <;> rfl
      rw [hone]
    rw [hmetadata, bind_eq_ok_iff]
    constructor
    · rintro ⟨candidates, hcandidates, hrest⟩
      obtain ⟨metadata, hfirst, hmake⟩ := bind_eq_ok_iff.mp hrest
      have hlength := (mapM_eq_ok_iff.mp hcandidates).length_eq
      rw [h.make_reread hlength.symm] at hmake
      cases hsecond : canonical P metadata with
      | error e =>
          rw [hsecond] at hmake
          cases hmake
      | ok metadata' =>
          rw [hsecond] at hmake
          have hx := Except.ok.inj hmake
          refine ⟨?_, congrArg PopulationSnapshot.objectives hx,
            congrArg PopulationSnapshot.constraints hx, metadata, hfirst, ?_⟩
          · exact hcandidates.trans (congrArg Except.ok
              (congrArg PopulationSnapshot.candidates hx))
          · rw [hsecond]
            exact congrArg Except.ok (congrArg PopulationSnapshot.metadata hx)
    · rintro ⟨hcandidates, hobjectives, hconstraints, metadata, hfirst, hsecond⟩
      refine ⟨x.candidates, hcandidates, bind_eq_ok_iff.mpr ⟨metadata, hfirst, ?_⟩⟩
      rw [h.make_reread rfl, hsecond, hobjectives, hconstraints]
      rfl
  rw [hparts, mapM_eq_self_iff, h.objectives_eq_iff, constraints_eq_iff]
  constructor
  · rintro ⟨hcandidates, hobjectives, hconstraints, hmetadata⟩
    have heach := fun c hc ↦ (recodedState_eq_iff c c.values.reread).mp (hcandidates c hc)
    exact ⟨fun c hc ↦ c.values.reread_eq_iff.mp (heach c hc).1, fun c hc ↦ (heach c hc).2,
      hobjectives, hconstraints, hmetadata⟩
  · intro hkeeps
    refine ⟨fun c hc ↦ ?_, hkeeps.objectives, hkeeps.constraints, hkeeps.metadata⟩
    exact (recodedState_eq_iff c c.values.reread).mpr
      ⟨c.values.reread_eq_iff.mpr (hkeeps.values c hc), hkeeps.candidateMetadata c hc⟩

end PopulationSnapshot

/-! ## Both -/

/-- **Batches and populations round-trip** exactly when no array loses a dimension behind an empty
one and the metadata are left as they are by encoding and decoding. -/
theorem arrays_round_trip_iff {P : ProtocolTypes} {states : List (UnknownState P)}
    {matrix : NdArray PyFloat} {tokens : List (Option String)} {batch : CandidateBatch P}
    (hbatch : CandidateBatch.make P states matrix tokens = .ok batch)
    {candidates : List (UnknownState P)} {objectives : NdArray PyFloat}
    {constraints : Option (NdArray PyFloat)} {candidateTokens : List (Option String)}
    {generation : ℤ} {timestamp : PyFloat} {metadata : Metadata P}
    {population : PopulationSnapshot P}
    (hpopulation : PopulationSnapshot.make P candidates objectives constraints candidateTokens
      generation timestamp metadata = .ok population) :
    (CandidateBatch.fromDict P batch.asDict = .ok batch ↔ batch.Keeps) ∧
      (PopulationSnapshot.fromDict P population.asDict = .ok population ↔ population.Keeps) := by
  have haligned := CandidateBatch.make_spec states matrix tokens
  have hchecked := PopulationSnapshot.make_spec candidates objectives constraints candidateTokens
    generation timestamp metadata
  rw [hbatch] at haligned
  rw [hpopulation] at hchecked
  exact ⟨CandidateBatch.Aligned.round_trip_iff haligned,
    PopulationSnapshot.Checked.round_trip_iff hchecked⟩

/-- An array without rows. -/
def noRows (columns : ℕ) : NdArray PyFloat where
  shape := [0, columns]
  data := []
  length_data := by simp

/-- A batch without candidates, three columns wide. -/
def emptyBatch : CandidateBatch ProtocolTypes.none := ⟨[], noRows 3, []⟩

/-- A population without candidates, with two objectives. -/
def emptyPopulation : PopulationSnapshot ProtocolTypes.none :=
  ⟨[], noRows 2, none, [], 0, .zero, []⟩

theorem emptyBatch_made : CandidateBatch.make ProtocolTypes.none [] (noRows 3) [] =
    .ok emptyBatch := by rfl

theorem emptyPopulation_made : PopulationSnapshot.make ProtocolTypes.none [] (noRows 2) none [] 0
    .zero [] = .ok emptyPopulation := by rfl

theorem arrays_round_trip_iff_empty :
    (CandidateBatch.fromDict ProtocolTypes.none emptyBatch.asDict = .ok emptyBatch ↔
        emptyBatch.Keeps) ∧
      (PopulationSnapshot.fromDict ProtocolTypes.none emptyPopulation.asDict =
        .ok emptyPopulation ↔ emptyPopulation.Keeps) :=
  arrays_round_trip_iff emptyBatch_made emptyPopulation_made

/-- Both are accepted and come back with other shapes. -/
theorem empty_shapes_lost :
    (CandidateBatch.make ProtocolTypes.none [] (noRows 3) [] = .ok emptyBatch ∧
      CandidateBatch.fromDict ProtocolTypes.none emptyBatch.asDict ≠ .ok emptyBatch) ∧
    PopulationSnapshot.make ProtocolTypes.none [] (noRows 2) none [] 0 .zero [] =
        .ok emptyPopulation ∧
      PopulationSnapshot.fromDict ProtocolTypes.none emptyPopulation.asDict ≠
        .ok emptyPopulation := by
  refine ⟨⟨emptyBatch_made, fun h ↦ ?_⟩, emptyPopulation_made, fun h ↦ ?_⟩
  · have haligned := CandidateBatch.make_spec (P := ProtocolTypes.none) [] (noRows 3) []
    rw [emptyBatch_made] at haligned
    have hwidth := (haligned.round_trip_iff.mp h).width rfl
    cases hwidth
  · have hchecked := PopulationSnapshot.make_spec (P := ProtocolTypes.none) [] (noRows 2) none [] 0
      .zero []
    rw [emptyPopulation_made] at hchecked
    have hwidth := (hchecked.round_trip_iff.mp h).objectives rfl
    cases hwidth

end Blackbase.Types
