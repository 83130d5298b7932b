import Blackbase.Core.Machine
import Blackbase.Project.Execution

/-!
# Supervised Cases

`execute_case_payload_supervised` of `project/supervision.py` for a Case whose policy requires
isolation.  A worker process runs the Case, seals its artifacts in the ledger, sends one message
through a pipe and exits; the supervisor polls the pipe, looks whether the worker is alive, reads
the control state, waits out the grace time and terminates the worker, each in a step of its own.
The worker may die at any moment, and one that has been terminated may go on for a while.

The seal and the message are two steps.  As long as nothing comes between them, the result that
the supervisor returns agrees with the ledger.
-/

namespace Blackbase.Project

universe u

/-- A message of the worker. -/
inductive WorkerMessage (O : Type u) where
  | result (payload : CaseRunResult O)
  | error (text : String)
  /-- A result whose payload is not a mapping. -/
  | noPayload
  /-- A message that is not a mapping. -/
  | invalid
deriving DecidableEq

/-- What `_control_signal` finds. -/
inductive ControlSignal where
  | timedOut
  | cancelled (reason : String)
deriving DecidableEq

/-- Where the worker stands. -/
inductive WorkerPc (O : Type u) where
  | unstarted
  | running
  /-- The commit record of the Case run has been written. -/
  | sealed
  | sending (message : WorkerMessage O)
  | sent
  /-- The end of the pipe has been closed. -/
  | closed
  | exited (code : ℤ)
deriving DecidableEq

/-- What the worker has written to the pipe. -/
inductive PipeContent (O : Type u) where
  | nothing
  | part (message : WorkerMessage O)
  | complete (message : WorkerMessage O)
deriving DecidableEq

/-- Where the supervisor stands. -/
inductive SupervisorPc (O : Type u) where
  /-- The control state is read once before the worker is started. -/
  | begin
  | poll
  | recv
  | received (message : WorkerMessage O)
  | alive
  | last
  | control
  | grace
  | terminate
  | join
  | kill
  | done (result : CaseRunResult O)
  /-- The control state could not be read, and the worker is still to be terminated. -/
  | failing
  | raised
deriving DecidableEq

/-- The two processes, the pipe and the ledger.  Whether the worker has been terminated, and the
result that it had sent completely before, are noted along. -/
structure Supervision (O : Type u) where
  worker : WorkerPc O
  pipe : PipeContent O
  /-- The ledger has a commit record of the Case run. -/
  committed : Bool
  supervisor : SupervisorPc O
  signal : Option ControlSignal
  terminated : Bool
  sentBefore : Option (CaseRunResult O)

/-- A step.  What the worker makes of its Case, what the control state says and which waits have
run out are choices of the step. -/
inductive SupervisionStep (O : Type u) where
  | commit
  | conclude (message : WorkerMessage O)
  | write
  | send
  | close
  | exit
  | die (code : ℤ)
  | supervise (read : Option ControlSignal) (elapsed fails : Bool)

/-! ## The results of the supervisor -/

variable {O : Type u}

/-- `_terminated_result`. -/
def terminatedResult (signal : ControlSignal) (terminated : Bool) : CaseRunResult O where
  status :=
    match signal with
    | .timedOut => .timedOut
    | .cancelled _ => .cancelled
  exitCode := 1
  failure := some
    { kind :=
        match signal with
        | .timedOut => "CaseDeadlineExceeded"
        | .cancelled _ => "CancellationRequested"
      message :=
        match signal with
        | .timedOut => "case deadline exceeded"
        | .cancelled reason => if reason = "" then "case cancellation requested" else reason
      phase := if terminated then "terminate" else "control" }
  output := none

/-- `_worker_failure_result`. -/
def workerFailureResult (message : String) : CaseRunResult O where
  status := .failed
  exitCode := 1
  failure := some { kind := "CaseWorkerExitError", message := message, phase := "supervise" }
  output := none

/-- The message is a result that is ok. -/
def WorkerMessage.ok : WorkerMessage O → Bool
  | result payload => payload.ok
  | error _ | noPayload | invalid => false

/-- A result has been sent completely. -/
def PipeContent.hasResult : PipeContent O → Bool
  | complete (.result _) => true
  | _ => false

/-- What the supervisor returns for a message. -/
def WorkerMessage.outcome : WorkerMessage O → CaseRunResult O
  | result payload => payload
  | error text => workerFailureResult text
  | noPayload => workerFailureResult "isolated Case worker failed"
  | invalid => workerFailureResult "isolated Case worker returned an invalid supervisor message"

/-- What the supervisor returns when the worker has exited. -/
def exitOutcome (pipe : PipeContent O) (code : ℤ) : CaseRunResult O :=
  match pipe with
  | .complete (.result payload) => payload
  | _ => workerFailureResult
      ("isolated Case process exited without a result envelope (exit_code=" ++ toString code ++ ")")

theorem WorkerMessage.ok_iff {message : WorkerMessage O} :
    message.ok = true ↔ ∃ r, message = .result r ∧ r.ok = true := by
  cases message with
  | result payload => simp [WorkerMessage.ok]
  | error text => simp [WorkerMessage.ok]
  | noPayload => simp [WorkerMessage.ok]
  | invalid => simp [WorkerMessage.ok]

theorem PipeContent.hasResult_iff {pipe : PipeContent O} :
    pipe.hasResult = true ↔ ∃ r, pipe = .complete (.result r) := by
  unfold PipeContent.hasResult
  split <;> simp_all

namespace Supervision

/-- The worker will write no more to the pipe. -/
def pipeClosed (s : Supervision O) : Bool :=
  match s.worker with
  | .closed | .exited _ => true
  | _ => false

/-- One step of the supervisor. -/
def supervise (s : Supervision O) (read : Option ControlSignal) (elapsed fails : Bool) :
    Option (Supervision O) :=
  match s.supervisor with
  | .begin =>
      if fails then some { s with supervisor := .raised }
      else
        match read with
        | none => some { s with worker := .running, supervisor := .poll }
        | some signal => some { s with supervisor := .done (terminatedResult signal false) }
  | .poll =>
      match s.pipe, s.pipeClosed with
      | .nothing, false => some { s with supervisor := .alive }
      | _, _ => some { s with supervisor := .recv }
  | .recv =>
      match s.pipe with
      | .complete message => some { s with supervisor := .received message }
      | _ =>
          -- The end of the file counts as no message; before it the read blocks.
          if s.pipeClosed then some { s with supervisor := .alive } else none
  | .received message => some { s with supervisor := .done message.outcome }
  | .alive =>
      match s.worker with
      | .exited _ => some { s with supervisor := .last }
      | _ => some { s with supervisor := .control }
  | .last =>
      match s.worker with
      | .exited code => some { s with supervisor := .done (exitOutcome s.pipe code) }
      | _ => none
  | .control =>
      if fails then some { s with supervisor := .failing }
      else
        let signal := s.signal.or read
        some { s with
          signal := signal
          supervisor := if signal.isSome then .grace else .poll }
  | .grace => some { s with supervisor := if elapsed then .terminate else .poll }
  | .terminate => some { s with supervisor := .join, terminated := true }
  | .join =>
      match s.worker, s.signal with
      | .exited _, some signal => some { s with supervisor := .done (terminatedResult signal true) }
      | _, _ => if elapsed then some { s with supervisor := .kill } else none
  | .kill =>
      match s.signal with
      | some signal =>
          some { s with
            worker := .exited (-9)
            supervisor := .done (terminatedResult signal true) }
      | none => none
  | .failing => some { s with supervisor := .raised, terminated := true }
  | .done _ => none
  | .raised => none

/-- The result that has been sent completely, if the worker had not been terminated. -/
def noteSent (s : Supervision O) (message : WorkerMessage O) : Option (CaseRunResult O) :=
  match message with
  | .result payload => if s.terminated then s.sentBefore else some payload
  | _ => s.sentBefore

/-- One step. -/
def step (s : Supervision O) : SupervisionStep O → Option (Supervision O)
  | .commit =>
      match s.worker with
      | .running => some { s with worker := .sealed, committed := true }
      | _ => none
  | .conclude message =>
      match s.worker with
      | .running | .sealed => some { s with worker := .sending message }
      | _ => none
  | .write =>
      match s.worker with
      | .sending message => some { s with pipe := .part message }
      | _ => none
  | .send =>
      match s.worker with
      | .sending message =>
          some { s with
            worker := .sent
            pipe := .complete message
            sentBefore := s.noteSent message }
      | _ => none
  | .close =>
      match s.worker with
      | .sent => some { s with worker := .closed }
      | _ => none
  | .exit =>
      match s.worker with
      | .closed => some { s with worker := .exited 0 }
      | _ => none
  | .die code =>
      match s.worker with
      | .unstarted | .exited _ => none
      | _ => some { s with worker := .exited code }
  | .supervise read elapsed fails => s.supervise read elapsed fails

/-- Nothing has been done. -/
def start : Supervision O where
  worker := .unstarted
  pipe := .nothing
  committed := false
  supervisor := .begin
  signal := none
  terminated := false
  sentBefore := none

/-! ## Agreement -/

/-- The condition on a step, unless the supervisor has raised: the worker is terminated only before
it has sent a result, and for a signal only before it has sealed its artifacts; it seals only
before it is terminated; and once it has sealed it concludes with a result that is ok and does not
die before that has been sent. -/
def Undivided (s : Supervision O) (l : SupervisionStep O) : Prop :=
  s.supervisor ≠ .raised →
    match l with
    | .commit => s.terminated = false
    | .conclude message => s.committed = true → message.ok = true
    | .die _ => s.committed = true → s.pipe.hasResult = true
    | .supervise _ _ _ =>
        (s.supervisor = .terminate → s.committed = false) ∧
        (s.supervisor = .terminate ∨ s.supervisor = .failing → s.pipe.hasResult = false)
    | _ => True

/-- What holds of the worker, the pipe and the ledger. -/
def WorkerInv (s : Supervision O) : Prop :=
  match s.worker with
  | .unstarted | .running => s.pipe = .nothing ∧ s.sentBefore = none ∧ s.committed = false
  | .sealed => s.pipe = .nothing ∧ s.sentBefore = none
  | .sending message => (s.pipe = .nothing ∨ s.pipe = .part message) ∧ s.sentBefore = none ∧
      (s.committed = true → message.ok = true)
  | .sent | .closed => (∃ message, s.pipe = .complete message) ∧
      (s.committed = true → ∃ message, s.pipe = .complete message ∧ message.ok = true)
  | .exited _ => s.committed = true → ∃ message, s.pipe = .complete message ∧ message.ok = true

/-- The worker neither seals nor sends any more. -/
def Silent (s : Supervision O) : Prop :=
  match s.worker with
  | .unstarted | .sent | .closed | .exited _ => True
  | _ => False

/-- The result agrees with the ledger, and with what had been sent before. -/
def Agrees (s : Supervision O) (result : CaseRunResult O) : Prop :=
  (result.ok = false → s.committed = false) ∧ ∀ r, s.sentBefore = some r → result = r

/-- What holds of the supervisor. -/
def SupervisorInv (s : Supervision O) : Prop :=
  match s.supervisor with
  | .begin => s.worker = .unstarted
  | .received message => s.pipe = .complete message
  | .join | .kill => s.terminated = true
  | .done result => (s.terminated = true ∨ s.Silent) ∧ s.Agrees result
  | .raised => False
  | _ => True

/-- The invariant of a supervisor that has not raised. -/
structure Inv (s : Supervision O) : Prop where
  worker : s.WorkerInv
  supervisor : s.SupervisorInv
  terminated : s.terminated = true → s.committed = false ∧ s.sentBefore = none
  sent : ∀ r, s.sentBefore = some r → s.pipe = .complete (.result r)

/-- The supervisor has raised, and no result had been sent. -/
structure Dropped (s : Supervision O) : Prop where
  raised : s.supervisor = .raised
  ended : s.terminated = true ∨ s.worker = .unstarted
  unsent : s.sentBefore = none

theorem start_inv : (start : Supervision O).Inv where
  worker := ⟨rfl, rfl, rfl⟩
  supervisor := rfl
  terminated h := nomatch h
  sent _ h := nomatch h

variable {s t : Supervision O}

theorem ok_terminatedResult (signal : ControlSignal) (terminated : Bool) :
    (terminatedResult signal terminated : CaseRunResult O).ok = false := by
  simp [CaseRunResult.ok, terminatedResult]

/-- The commit record is followed by a complete result. -/
theorem Inv.complete (h : s.Inv) (hsilent : s.Silent) (hcommitted : s.committed = true) :
    ∃ message, s.pipe = .complete message ∧ message.ok = true := by
  have hworker := h.worker
  unfold WorkerInv at hworker
  unfold Silent at hsilent
  cases hpc : s.worker with
  | unstarted =>
      simp only [hpc] at hworker
      rw [hworker.2.2] at hcommitted
      cases hcommitted
  | running => simp [hpc] at hsilent
  | sealed => simp [hpc] at hsilent
  | sending message => simp [hpc] at hsilent
  | sent => simp only [hpc] at hworker; exact hworker.2 hcommitted
  | closed => simp only [hpc] at hworker; exact hworker.2 hcommitted
  | exited code => simp only [hpc] at hworker; exact hworker hcommitted

/-- Who has written a complete message is silent. -/
theorem Inv.silent_of_complete (h : s.Inv) {message : WorkerMessage O}
    (hpipe : s.pipe = .complete message) : s.Silent := by
  have hworker := h.worker
  unfold WorkerInv at hworker
  unfold Silent
  cases hpc : s.worker with
  | running => simp [hpc, hpipe] at hworker
  | sealed => simp [hpc, hpipe] at hworker
  | sending message => simp [hpc, hpipe] at hworker
  | unstarted => trivial
  | sent => trivial
  | closed => trivial
  | exited code => trivial

/-- A result that is received agrees with the ledger. -/
theorem Inv.agrees_of_complete (h : s.Inv) {message : WorkerMessage O}
    (hpipe : s.pipe = .complete message) : s.Agrees message.outcome := by
  constructor
  · intro hok
    by_contra hcommitted
    obtain ⟨sent, hsent, hsentok⟩ :=
      h.complete (h.silent_of_complete hpipe) (by simpa using hcommitted)
    obtain rfl := PipeContent.complete.inj (hpipe.symm.trans hsent)
    obtain ⟨r, rfl, hr⟩ := WorkerMessage.ok_iff.mp hsentok
    exact absurd (hr.symm.trans hok) (by decide)
  · intro r hr
    obtain rfl := PipeContent.complete.inj (hpipe.symm.trans (h.sent r hr))
    rfl

/-- What is returned for a worker that has exited agrees with the ledger. -/
theorem Inv.agrees_of_exited (h : s.Inv) {code : ℤ} (hworker : s.worker = .exited code) :
    s.Agrees (exitOutcome s.pipe code) := by
  have hsilent : s.Silent := by rw [Silent, hworker]; trivial
  constructor
  · intro hok
    by_contra hcommitted
    obtain ⟨message, hpipe, hmessage⟩ := h.complete hsilent (by simpa using hcommitted)
    obtain ⟨r, rfl, hr⟩ := WorkerMessage.ok_iff.mp hmessage
    simp only [exitOutcome, hpipe] at hok
    exact absurd (hr.symm.trans hok) (by decide)
  · intro r hr
    simp [exitOutcome, h.sent r hr]

/-- A worker that has been terminated has neither sealed nor sent a result before. -/
theorem Inv.agrees_of_terminated (h : s.Inv) (hterminated : s.terminated = true)
    (result : CaseRunResult O) : s.Agrees result := by
  obtain ⟨hcommitted, hsent⟩ := h.terminated hterminated
  refine ⟨fun _ ↦ hcommitted, fun r hr ↦ ?_⟩
  rw [hsent] at hr
  cases hr

/-! ## Steps of the worker -/

/-- A step of the worker leaves the supervisor where it is. -/
theorem Inv.keep (h : s.Inv) (hsupervisor : t.supervisor = s.supervisor)
    (hterminated : t.terminated = s.terminated) (hstarted : s.worker ≠ .unstarted)
    (hquiet : s.terminated = true ∨ s.Silent →
      t.committed = s.committed ∧ t.sentBefore = s.sentBefore)
    (hsilent : s.Silent → t.Silent ∧ t.pipe = s.pipe) : t.SupervisorInv := by
  have hold := h.supervisor
  unfold SupervisorInv at hold ⊢
  rw [hsupervisor]
  cases hpc : s.supervisor with
  | begin =>
      simp only [hpc] at hold
      exact absurd hold hstarted
  | received message =>
      simp only [hpc] at hold
      exact (hsilent (h.silent_of_complete hold)).2.trans hold
  | join =>
      simp only [hpc] at hold
      exact hterminated.trans hold
  | kill =>
      simp only [hpc] at hold
      exact hterminated.trans hold
  | done result =>
      simp only [hpc] at hold
      obtain ⟨hcommitted, hsent⟩ := hquiet hold.1
      refine ⟨?_, ?_⟩
      · exact hold.1.imp (fun hterm ↦ hterminated.trans hterm) fun hs ↦ (hsilent hs).1
      · rw [Agrees, hcommitted, hsent]
        exact hold.2
  | poll => trivial
  | recv => trivial
  | alive => trivial
  | last => trivial
  | control => trivial
  | grace => trivial
  | terminate => trivial
  | failing => trivial
  | raised => simp only [hpc] at hold

/-- The worker goes on without a trace. -/
theorem Inv.silent_step (h : s.Inv) {worker : WorkerPc O} (hstarted : s.worker ≠ .unstarted)
    (hworker : ({ s with worker := worker } : Supervision O).WorkerInv)
    (hsilent : ({ s with worker := worker } : Supervision O).Silent) :
    ({ s with worker := worker } : Supervision O).Inv where
  worker := hworker
  supervisor := h.keep rfl rfl hstarted (fun _ ↦ ⟨rfl, rfl⟩) fun _ ↦ ⟨hsilent, rfl⟩
  terminated := h.terminated
  sent := h.sent

theorem Inv.not_raised (h : s.Inv) : s.supervisor ≠ .raised := by
  intro hraised
  have hsupervisor := h.supervisor
  rw [SupervisorInv, hraised] at hsupervisor
  exact hsupervisor

theorem Inv.worker_step {l : SupervisionStep O} (h : s.Inv) (hok : s.Undivided l)
    (hl : ∀ read elapsed fails, l ≠ .supervise read elapsed fails)
    (hstep : s.step l = some t) : t.Inv := by
  have hworker := h.worker
  unfold WorkerInv at hworker
  replace hok := hok h.not_raised
  cases l with
  | commit =>
      simp only [step] at hstep
      cases hpc : s.worker <;> simp only [hpc, reduceCtorEq] at hstep hworker
      obtain rfl := Option.some.inj hstep
      have hterminated : s.terminated = false := hok
      have hsilent : ¬ s.Silent := by simp [Silent, hpc]
      refine ⟨⟨hworker.1, hworker.2.1⟩, ?_, fun hterm ↦ ?_, h.sent⟩
      · refine h.keep rfl rfl (by simp [hpc]) (fun hover ↦ ?_) fun hs ↦ ?_
        · rcases hover with hterm | hs
          · rw [hterminated] at hterm
            cases hterm
          · exact absurd hs hsilent
        · exact absurd hs hsilent
      · exact absurd (hterminated.symm.trans hterm) (by decide)
  | conclude message =>
      simp only [step] at hstep
      cases hpc : s.worker <;> simp only [hpc, reduceCtorEq] at hstep hworker
      case running | sealed =>
        obtain rfl := Option.some.inj hstep
        have hsilent : ¬ s.Silent := by simp [Silent, hpc]
        have hnothing : s.pipe = .nothing := hworker.1
        have hunsent : s.sentBefore = none := by simp [hworker]
        refine ⟨⟨.inl hnothing, hunsent, hok⟩, ?_, h.terminated, h.sent⟩
        exact h.keep rfl rfl (by simp [hpc]) (fun _ ↦ ⟨rfl, rfl⟩)
          fun hs ↦ absurd hs hsilent
  | write =>
      simp only [step] at hstep
      cases hpc : s.worker <;> simp only [hpc, reduceCtorEq] at hstep hworker
      obtain rfl := Option.some.inj hstep
      have hsilent : ¬ s.Silent := by simp [Silent, hpc]
      obtain ⟨-, hunsent, hcommitted⟩ := hworker
      refine ⟨?_, ?_, h.terminated, fun r hr ↦ ?_⟩
      · rw [WorkerInv]
        simp only
        exact ⟨.inr trivial, hunsent, hcommitted⟩
      · exact h.keep rfl rfl (by simp [hpc]) (fun _ ↦ ⟨rfl, rfl⟩)
          fun hs ↦ absurd hs hsilent
      · rw [hunsent] at hr
        cases hr
  | send =>
      simp only [step] at hstep
      cases hpc : s.worker <;> simp only [hpc, reduceCtorEq] at hstep hworker
      rename_i message
      obtain rfl := Option.some.inj hstep
      have hsilent : ¬ s.Silent := by simp [Silent, hpc]
      obtain ⟨-, hunsent, hcommitted⟩ := hworker
      have hnoted : s.terminated = true → s.noteSent message = none := by
        intro hterm
        cases message <;> simp [noteSent, hterm, hunsent]
      refine ⟨⟨⟨message, rfl⟩, fun hc ↦ ?_⟩, ?_, fun hterm ↦ ?_, fun r hr ↦ ?_⟩
      · exact ⟨message, rfl, hcommitted hc⟩
      · refine h.keep rfl rfl (by simp [hpc]) (fun hover ↦ ?_)
          fun hs ↦ absurd hs hsilent
        have hterm := hover.resolve_right hsilent
        exact ⟨rfl, (hnoted hterm).trans hunsent.symm⟩
      · exact ⟨(h.terminated hterm).1, hnoted hterm⟩
      · cases message with
        | result payload =>
            simp only [noteSent, hunsent] at hr
            split_ifs at hr
            rw [Option.some.inj hr]
        | error text => simp [noteSent, hunsent] at hr
        | noPayload => simp [noteSent, hunsent] at hr
        | invalid => simp [noteSent, hunsent] at hr
  | close =>
      simp only [step] at hstep
      cases hpc : s.worker <;> simp only [hpc, reduceCtorEq] at hstep hworker
      obtain rfl := Option.some.inj hstep
      exact h.silent_step (by simp [hpc]) hworker trivial
  | exit =>
      simp only [step] at hstep
      cases hpc : s.worker <;> simp only [hpc, reduceCtorEq] at hstep hworker
      obtain rfl := Option.some.inj hstep
      exact h.silent_step (by simp [hpc]) hworker.2 trivial
  | die code =>
      simp only [step] at hstep
      have hstarted : s.worker ≠ .unstarted := by
        intro hpc
        simp [hpc] at hstep
      have ht : t = { s with worker := .exited code } := by
        cases hpc : s.worker <;> simp only [hpc, reduceCtorEq] at hstep
        all_goals exact (Option.some.inj hstep).symm
      subst ht
      refine h.silent_step hstarted (fun hcommitted ↦ ?_) trivial
      -- The commit record is there, so the result has been sent.
      obtain ⟨r, hr⟩ := PipeContent.hasResult_iff.mp (hok hcommitted)
      exact h.complete (h.silent_of_complete hr) hcommitted
  | supervise read elapsed fails => exact absurd rfl (hl read elapsed fails)

/-! ## Steps of the supervisor -/

/-- A step of the supervisor that touches neither the worker nor the pipe. -/
theorem Inv.supervisor_step (h : s.Inv) {supervisor : SupervisorPc O}
    {signal : Option ControlSignal}
    (hsupervisor :
      ({ s with supervisor := supervisor, signal := signal } : Supervision O).SupervisorInv) :
    ({ s with supervisor := supervisor, signal := signal } : Supervision O).Inv where
  worker := h.worker
  supervisor := hsupervisor
  terminated := h.terminated
  sent := h.sent

theorem Inv.supervise (h : s.Inv) {read : Option ControlSignal} {elapsed fails : Bool}
    (hok : s.Undivided (.supervise read elapsed fails))
    (hstep : s.supervise read elapsed fails = some t) : t.Inv ∨ t.Dropped := by
  obtain ⟨hunsealed, hunfinished⟩ := hok h.not_raised
  have hsupervisor := h.supervisor
  unfold SupervisorInv at hsupervisor
  unfold Supervision.supervise at hstep
  have hunsent : s.supervisor = .terminate ∨ s.supervisor = .failing → s.sentBefore = none := by
    intro hpc
    rw [Option.eq_none_iff_forall_ne_some]
    intro r hr
    have hresult := PipeContent.hasResult_iff.mpr ⟨r, h.sent r hr⟩
    exact absurd (hresult.symm.trans (hunfinished hpc)) (by decide)
  cases hpc : s.supervisor with
  | begin =>
      simp only [hpc] at hstep hsupervisor
      have hworker := h.worker
      simp only [WorkerInv, hsupervisor] at hworker
      split at hstep
      · obtain rfl := Option.some.inj hstep
        exact .inr ⟨rfl, .inr hsupervisor, hworker.2.1⟩
      · split at hstep
        · obtain rfl := Option.some.inj hstep
          exact .inl ⟨hworker, trivial, h.terminated, h.sent⟩
        · obtain rfl := Option.some.inj hstep
          refine .inl (h.supervisor_step ?_)
          refine ⟨.inr ?_, fun _ ↦ hworker.2.2, fun r hr ↦ ?_⟩
          · simp only [Silent, hsupervisor]
          · exact absurd (hworker.2.1.symm.trans hr) (by simp)
  | poll =>
      simp only [hpc] at hstep
      split at hstep
      all_goals
        obtain rfl := Option.some.inj hstep
        exact .inl (h.supervisor_step trivial)
  | recv =>
      simp only [hpc] at hstep
      split at hstep
      case h_1 message hpipe =>
        obtain rfl := Option.some.inj hstep
        exact .inl (h.supervisor_step hpipe)
      case h_2 =>
        split_ifs at hstep
        obtain rfl := Option.some.inj hstep
        exact .inl (h.supervisor_step trivial)
  | received message =>
      simp only [hpc] at hstep hsupervisor
      obtain rfl := Option.some.inj hstep
      have hdone := h.agrees_of_complete hsupervisor
      refine .inl (h.supervisor_step ?_)
      exact ⟨.inr (h.silent_of_complete hsupervisor), hdone⟩
  | alive =>
      simp only [hpc] at hstep
      split at hstep
      all_goals
        obtain rfl := Option.some.inj hstep
        exact .inl (h.supervisor_step trivial)
  | last =>
      simp only [hpc] at hstep
      split at hstep
      case h_1 code hcode =>
        obtain rfl := Option.some.inj hstep
        have hdone := h.agrees_of_exited hcode
        refine .inl (h.supervisor_step ?_)
        refine ⟨.inr ?_, hdone⟩
        simp only [Silent, hcode]
      case h_2 => cases hstep
  | control =>
      simp only [hpc] at hstep
      split at hstep
      · obtain rfl := Option.some.inj hstep
        exact .inl (h.supervisor_step trivial)
      · obtain rfl := Option.some.inj hstep
        refine .inl (h.supervisor_step ?_)
        rw [SupervisorInv]
        split_ifs <;> trivial
  | grace =>
      simp only [hpc] at hstep
      obtain rfl := Option.some.inj hstep
      refine .inl (h.supervisor_step ?_)
      rw [SupervisorInv]
      split_ifs <;> trivial
  | terminate =>
      simp only [hpc] at hstep
      obtain rfl := Option.some.inj hstep
      exact .inl ⟨h.worker, rfl, fun _ ↦ ⟨hunsealed hpc, hunsent (.inl hpc)⟩, h.sent⟩
  | join =>
      simp only [hpc] at hstep hsupervisor
      split at hstep
      · obtain rfl := Option.some.inj hstep
        refine .inl (h.supervisor_step ?_)
        exact ⟨.inl hsupervisor, h.agrees_of_terminated hsupervisor _⟩
      · split_ifs at hstep
        obtain rfl := Option.some.inj hstep
        exact .inl (h.supervisor_step hsupervisor)
  | kill =>
      simp only [hpc] at hstep hsupervisor
      split at hstep
      case h_1 =>
        obtain rfl := Option.some.inj hstep
        obtain ⟨hcommitted, -⟩ := h.terminated hsupervisor
        refine .inl ⟨fun hc ↦ ?_, ⟨.inl hsupervisor, h.agrees_of_terminated hsupervisor _⟩,
          h.terminated, h.sent⟩
        exact absurd (hcommitted.symm.trans hc) (by decide)
      case h_2 => cases hstep
  | done result =>
      simp only [hpc] at hstep
      cases hstep
  | failing =>
      simp only [hpc] at hstep
      obtain rfl := Option.some.inj hstep
      exact .inr ⟨rfl, .inl rfl, hunsent (.inr hpc)⟩
  | raised => exact absurd hpc h.not_raised

/-- Nothing that the worker does after the supervisor has raised counts as sent before. -/
theorem Dropped.step (h : s.Dropped) {l : SupervisionStep O} (hstep : s.step l = some t) :
    t.Dropped := by
  obtain ⟨hraised, hended, hunsent⟩ := h
  cases l with
  | supervise read elapsed fails =>
      simp only [Supervision.step, Supervision.supervise, hraised, reduceCtorEq] at hstep
  | send =>
      simp only [Supervision.step] at hstep
      cases hpc : s.worker <;> simp only [hpc, reduceCtorEq] at hstep
      rename_i message
      obtain rfl := Option.some.inj hstep
      have hterminated : s.terminated = true := hended.resolve_right (by simp [hpc])
      refine ⟨hraised, .inl hterminated, ?_⟩
      cases message <;> simp [noteSent, hterminated, hunsent]
  | commit | conclude message | write | close | exit | die code =>
      simp only [Supervision.step] at hstep
      cases hpc : s.worker <;> simp only [hpc, reduceCtorEq] at hstep
      all_goals
        obtain rfl := Option.some.inj hstep
        exact ⟨hraised, .inl (hended.resolve_right (by simp [hpc])), hunsent⟩

theorem inv_step (h : s.Inv ∨ s.Dropped) {l : SupervisionStep O} (hok : s.Undivided l)
    (hstep : s.step l = some t) : t.Inv ∨ t.Dropped := by
  obtain h | h := h
  · cases l with
    | supervise read elapsed fails => exact h.supervise hok hstep
    | commit | conclude message | write | send | close | exit | die code =>
        exact .inl (h.worker_step hok (by simp) hstep)
  · exact .inr (h.step hstep)

theorem inv_reach (h : Machine.Reach step Undivided start s) : s.Inv ∨ s.Dropped :=
  h.invariant (.inl start_inv) fun _ _ _ hs hok hstep ↦ inv_step hs hok hstep

/-- **A supervised result agrees with the artifact ledger.**  A result that is not ok is returned
only when the ledger has no commit record of the Case run, and a result that had been sent
completely before the worker was terminated is the one that is returned. -/
theorem agrees (h : Machine.Reach step Undivided (start : Supervision O) s) :
    (∀ result, s.supervisor = .done result → s.Agrees result) ∧
    (s.supervisor = .raised → s.sentBefore = none) := by
  obtain h | h := inv_reach h
  · refine ⟨fun result hdone ↦ ?_, fun hraised ↦ absurd hraised h.not_raised⟩
    have hsupervisor := h.supervisor
    rw [SupervisorInv, hdone] at hsupervisor
    exact hsupervisor.2
  · refine ⟨fun result hdone ↦ ?_, fun _ ↦ h.unsent⟩
    exact absurd (h.raised.symm.trans hdone) (by simp)

instance [DecidableEq O] (s : Supervision O) (l : SupervisionStep O) :
    Decidable (s.Undivided l) :=
  match l with
  | .commit => inferInstanceAs (Decidable (s.supervisor ≠ .raised → s.terminated = false))
  | .conclude message =>
      inferInstanceAs (Decidable (s.supervisor ≠ .raised → s.committed = true → message.ok = true))
  | .die _ => inferInstanceAs
      (Decidable (s.supervisor ≠ .raised → s.committed = true → s.pipe.hasResult = true))
  | .supervise _ _ _ => inferInstanceAs (Decidable (s.supervisor ≠ .raised →
      (s.supervisor = .terminate → s.committed = false) ∧
      (s.supervisor = .terminate ∨ s.supervisor = .failing → s.pipe.hasResult = false)))
  | .write | .send | .close | .exit =>
      inferInstanceAs (Decidable (s.supervisor ≠ .raised → True))

/-- A Case that has been checked. -/
def checkedResult : CaseRunResult Unit where
  status := .checked
  exitCode := 0
  failure := none
  output := some ()

/-- The worker seals, sends and exits, and the supervisor finds it dead. -/
def sealedAndSent : List (SupervisionStep Unit) :=
  [.supervise none false false, .supervise none false false, .commit,
    .conclude (.result checkedResult), .write, .send, .close, .exit,
    .supervise none false false, .supervise none false false]

theorem agrees_exited :
    ∃ s, Machine.Reach step Undivided start s ∧ s.supervisor = .done checkedResult ∧
      s.committed = true ∧ s.Agrees checkedResult := by
  have hrun : ((Machine.run (Machine.guarded step Undivided) start sealedAndSent).map fun s ↦
      (s.supervisor, s.committed)) = some (.done checkedResult, true) := by
    decide
  obtain ⟨s, hs, hend⟩ := Option.map_eq_some_iff.mp hrun
  have hreach := Machine.reach_of_run hs
  have hdone : s.supervisor = .done checkedResult := congrArg Prod.fst hend
  exact ⟨s, hreach, hdone, congrArg Prod.snd hend, (agrees hreach).1 checkedResult hdone⟩

/-- The grace time runs out when the worker has sealed, and then `after` comes before the worker is
terminated. -/
def graceElapsed (after : List (SupervisionStep Unit)) : List (SupervisionStep Unit) :=
  [.supervise none false false, .supervise none false false, .supervise none false false,
    .commit, .supervise (some .timedOut) false false, .supervise none true false] ++ after ++
  [.supervise none false false, .die (-15), .supervise none false false]

/-- Two runs in which a Case whose artifacts are sealed is reported as timed out; in the second one
its result had been sent. -/
theorem timedOut_after_commit :
    (∃ (s : Supervision Unit) (result : CaseRunResult Unit),
      Machine.Reach step Machine.anyStep start s ∧ s.supervisor = .done result ∧
        result.ok = false ∧ s.committed = true) ∧
    ∃ (s : Supervision Unit) (result : CaseRunResult Unit),
      Machine.Reach step Machine.anyStep start s ∧ s.supervisor = .done result ∧
        s.sentBefore = some checkedResult ∧ result ≠ checkedResult := by
  constructor
  · have hrun : ((Machine.run step start (graceElapsed [])).map fun s ↦
        (s.supervisor, s.committed)) = some (.done (terminatedResult .timedOut true), true) := by
      decide
    obtain ⟨s, hs, hend⟩ := Option.map_eq_some_iff.mp hrun
    exact ⟨s, terminatedResult .timedOut true, Machine.reach_of_run_any hs, congrArg Prod.fst hend,
      ok_terminatedResult .timedOut true, congrArg Prod.snd hend⟩
  · have hrun : ((Machine.run step start
        (graceElapsed [.conclude (.result checkedResult), .write, .send])).map fun s ↦
        (s.supervisor, s.sentBefore)) =
        some (.done (terminatedResult .timedOut true), some checkedResult) := by
      decide
    obtain ⟨s, hs, hend⟩ := Option.map_eq_some_iff.mp hrun
    exact ⟨s, terminatedResult .timedOut true, Machine.reach_of_run_any hs, congrArg Prod.fst hend,
      congrArg Prod.snd hend, by decide⟩

end Supervision

end Blackbase.Project
