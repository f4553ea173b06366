import MySqlProxy.Server.Loop

/-!
# A clean end

A completion that is queued for a connection when the connection is removed is still delivered, and
a handler that acts then uses a destroyed object: the server is `Doomed`. A doomed server stays so
until that happens and never ends cleanly (`doomed_run`), and what has doomed it is a removal that
was not quiet (`no_use_iff_quiet`). After the stop signal nothing dooms a server that is not, so it
is settled at the signal whether the program can end cleanly, and then it does so in every order of
the events (`clean_end_iff`).
-/

namespace Proxy

section

variable [Host]

/-- A completion is queued whose handler will use a destroyed connection. -/
def Server.Doomed (server : Server) : Prop :=
  ∃ ptr, ptr ∉ server.connections ∧
    ∃ op ∈ server.operations ptr, ∃ call, op.handlerCall = some call

/-- The queued completion is there until it is delivered, and that is the use of the connection. -/
theorem Server.Doomed.step {server server' : Server} {event : Event} (h : server.Doomed)
    (hhealthy : Healthy server) (hunborn : Unborn server)
    (hstep : server.step event = .ok (.running server')) : server'.Doomed := by
  obtain ⟨ptr, hgone, op, hop, call, hcall⟩ := h
  cases objectStep_of_step hstep ptr with
  | other htarget hobject hplace =>
    refine ⟨ptr, mt hplace.member.mp hgone, op, ?_, call, hcall⟩
    rw [Server.operations, hobject]
    exact hop
  | completed hpending hresult hcomplete hobject hplace =>
    exact absurd hcomplete (hhealthy.complete_ne_some hgone hpending)
  | silent hsilent hcompleted hnone hobject hplace =>
    rename_i i sendResult op'
    refine ⟨ptr, mt hplace.member.mp hgone, op, ?_, call, hcall⟩
    obtain ⟨j, hj⟩ := List.mem_iff_getElem?.mp hop
    have hne : j ≠ i := by
      rintro rfl
      rw [hj, Option.some.injEq] at hsilent
      rw [hsilent, hnone] at hcall
      cases hcall
    rw [Server.operations, hobject]
    exact List.mem_eraseIdx_iff_getElem?.mpr ⟨j, hne, hj⟩
  | received hop' hcall' hmember hobject hplace => exact absurd hmember hgone
  | transferred hop' hcall' hmember hallowed htransfer hobject hplace => exact absurd hmember hgone
  | removed hop' hcall' hmember hobject hgone' hnext => exact absurd hmember hgone
  | stopped hmember hobject hgone' hnext => exact absurd hmember hgone
  | started hptr hstart hmember hborn =>
    rw [hunborn.operations (by rw [hptr]; exact Nat.lt_irrefl _)] at hop
    cases hop

/-- **Doomed for good.** Induction on the further events from the right. -/
theorem doomed_run {events more : List Event} {server server' : Server}
    (h : runEvents events = .ok (.running server)) (hdoomed : server.Doomed)
    (hmore : runEvents (events ++ more) = .ok (.running server')) : server'.Doomed := by
  induction more using List.reverseRecOn generalizing server' with
  | nil =>
    rw [List.append_nil, h, Except.ok.injEq] at hmore
    cases hmore
    exact hdoomed
  | append_singleton more event ih =>
    rw [← List.append_assoc] at hmore
    obtain ⟨middle, hmiddle, hlast⟩ := Fallible.run_snoc_ok.mp (run_stay.mpr hmore)
    have hbefore := run_stay.mp hmiddle
    exact (ih hbefore).step (healthy_of_runEvents hbefore) (unborn_of_runEvents hbefore)
      (Server.stay_ok.mp hlast)

omit [Host] in
/-- A handler that acts on a removed connection is one that dooms the server. -/
theorem ActsOnRemoved.doomed {server : Server} {event : Event} (h : ActsOnRemoved server event) :
    server.Doomed := by
  obtain ⟨ptr, i, sendResult, op, call, -, hop, hcall, hgone⟩ := h
  exact ⟨ptr, hgone, op, List.mem_of_getElem? hop, call, hcall⟩

/-- Only the queued completion of a removed connection uses a destroyed object. -/
theorem doomed_of_undefinedBehaviour {server : Server} {event : Event}
    (hstep : server.step event = .ok .undefinedBehaviour) : server.Doomed :=
  (actsOnRemoved_of_undefinedBehaviour (transition_of_step hstep) rfl).doomed

/-- In a doomed server it can be delivered next. -/
theorem Server.Doomed.undefinedBehaviour {server : Server} (h : server.Doomed)
    (hhealthy : Healthy server) : ∃ event, server.step event = .ok .undefinedBehaviour := by
  obtain ⟨ptr, hgone, op, hop, call, hcall⟩ := h
  obtain ⟨i, hi⟩ := List.mem_iff_getElem?.mp hop
  have hcompleted : op.isCompleted = true := (hhealthy.dead ptr hgone).completed op hop
  have hpermits := call.permits_failed ""
  have hnot : ptr ∉ (server.setOperations ptr ((server.operations ptr).eraseIdx i)).connections :=
    hgone
  refine ⟨.deliver ptr i (.failed ""), ?_⟩
  simp [Server.step, hi, hcompleted, hcall, hpermits, hnot]

/-- **Quiet removals.** No event that is possible next uses a destroyed connection exactly when
every removal of the run so far has been quiet. -/
theorem no_use_iff_quiet {events : List Event} {server : Server}
    (h : runEvents events = .ok (.running server)) :
    (∀ event, server.step event ≠ .ok .undefinedBehaviour) ↔
      ∀ front event back s, events = front ++ event :: back →
        runEvents front = .ok (.running s) → QuietRemoval s event := by
  constructor
  · rintro hnone front event back s rfl hfront
    by_contra hloud
    -- the removal dooms the server, and nothing but the use of the connection ends that
    rw [show front ++ event :: back = (front ++ [event]) ++ back from by simp] at h
    obtain ⟨middle, hmiddle⟩ := Fallible.run_prefix_ok (run_stay.mpr h)
    obtain ⟨before, hbefore, hlast⟩ := Fallible.run_snoc_ok.mp hmiddle
    obtain rfl : before = s := Except.ok.inj (hbefore.symm.trans (run_stay.mpr hfront))
    obtain ⟨event', hacts, -⟩ :=
      loud_removal_acts (transition_of_step (Server.stay_ok.mp hlast)) hloud
    have hdoomed := doomed_run (run_stay.mp hmiddle) hacts.doomed h
    obtain ⟨last, hused⟩ := hdoomed.undefinedBehaviour (healthy_of_runEvents h)
    exact hnone last hused
  · intro hquiet event hused
    exact (rests_of_quiet hquiet h).not_actsOnRemoved event
      (actsOnRemoved_of_undefinedBehaviour (transition_of_step hused) rfl)

/-- After the stop signal nothing dooms the server any more. -/
theorem Draining.not_doomed {server server' : Server} {event : Event} (h : Draining server)
    (hdoomed : ¬ server.Doomed) (hstep : server.step event = .ok (.running server')) :
    ¬ server'.Doomed := by
  rintro ⟨ptr, hnot, op, hop, call, hcall⟩
  have hgone : ptr ∉ server.connections := h.shutDown.not_mem ptr
  suffices hback : op ∈ server.operations ptr from hdoomed ⟨ptr, hgone, op, hback, call, hcall⟩
  unfold Server.operations at hop
  cases objectStep_of_step hstep ptr with
  | other htarget hobject hplace =>
    rw [hobject] at hop
    exact hop
  | completed hpending hresult hcomplete hobject hplace =>
    exact absurd hcomplete (h.healthy.complete_ne_some hgone hpending)
  | silent hsilent hcompleted hnone hobject hplace =>
    rw [hobject] at hop
    exact List.mem_of_mem_eraseIdx hop
  | received hop' hcall' hmember hobject hplace => exact absurd hmember hgone
  | transferred hop' hcall' hmember hallowed htransfer hobject hplace => exact absurd hmember hgone
  | removed hop' hcall' hmember hobject hgone' hnext => exact absurd hmember hgone
  | stopped hmember hobject hgone' hnext => exact absurd hmember hgone
  | started hptr hstart hmember hborn => exact absurd hmember hnot

/-- After the stop signal, a server that is not doomed takes its operations off one by one. -/
theorem Draining.step_of_not_doomed {server : Server} {event : Event} {process : Process}
    (h : Draining server) (hdoomed : ¬ server.Doomed) (hstep : server.step event = .ok process) :
    ∃ server', process = .running server' ∧ server'.outstanding + 1 = server.outstanding ∧
      ¬ server'.Doomed := by
  rcases h.step (transition_of_step hstep) with rfl | ⟨server', rfl, hless⟩
  · exact absurd (doomed_of_undefinedBehaviour hstep) hdoomed
  · exact ⟨server', rfl, hless, h.not_doomed hdoomed hstep⟩

/-- So do all its runs. Induction on the further events from the right. -/
theorem running_of_not_doomed {events more : List Event} {server : Server} {process : Process}
    (h : runEvents events = .ok (.running server)) (hsignal : Event.deliverSignal ∈ events)
    (hdoomed : ¬ server.Doomed) (hmore : runEvents (events ++ more) = .ok process) :
    ∃ server', process = .running server' ∧ ¬ server'.Doomed := by
  induction more using List.reverseRecOn generalizing process with
  | nil =>
    rw [List.append_nil, h, Except.ok.injEq] at hmore
    exact ⟨server, hmore.symm, hdoomed⟩
  | append_singleton more event ih =>
    rw [← List.append_assoc] at hmore
    obtain ⟨before, hbefore, hlast⟩ := Fallible.run_snoc_ok.mp hmore
    obtain ⟨middle, rfl, hmiddle⟩ := ih hbefore
    have hdraining := draining_of_signal hbefore (List.mem_append_left more hsignal)
    obtain ⟨server', hrunning, -, hstays⟩ := hdraining.step_of_not_doomed hmiddle hlast
    exact ⟨server', hrunning, hstays⟩

/-- And one of them comes to an end. Induction on the number of outstanding operations. -/
theorem exists_quiet {n : Nat} {events : List Event} {server : Server}
    (h : runEvents events = .ok (.running server)) (hsignal : Event.deliverSignal ∈ events)
    (hdoomed : ¬ server.Doomed) (hn : server.outstanding = n) :
    ∃ more server', runEvents (events ++ more) = .ok (.running server') ∧ server'.Quiet := by
  have hdraining := draining_of_signal h hsignal
  induction n generalizing events server with
  | zero =>
    refine ⟨[], server, ?_, (outstanding_eq_zero_iff hdraining.unborn).mp hn⟩
    rw [List.append_nil]
    exact h
  | succ n ih =>
    -- something is outstanding, so some event is possible
    have hevent : ∃ event process, server.step event = .ok process := by
      by_contra hno
      have hquiet : server.Quiet := by
        intro event
        cases hstep : server.step event with
        | ok process => exact absurd ⟨event, process, hstep⟩ hno
        | error e => cases e; rfl
      rw [(outstanding_eq_zero_iff hdraining.unborn).mpr hquiet] at hn
      omega
    obtain ⟨event, process, hstep⟩ := hevent
    obtain ⟨middle, rfl, hless, hmiddle⟩ := hdraining.step_of_not_doomed hdoomed hstep
    have hnext : runEvents (events ++ [event]) = .ok (.running middle) :=
      Fallible.run_snoc_ok.mpr ⟨_, h, hstep⟩
    have hsignal' := List.mem_append_left [event] hsignal
    obtain ⟨more, server', hrun, hquiet⟩ := ih hnext hsignal' hmiddle (by omega)
      (draining_of_signal hnext hsignal')
    refine ⟨event :: more, server', ?_, hquiet⟩
    rw [List.append_assoc] at hrun
    exact hrun

/-- **When the program can still end cleanly.** After the stop signal, whatever the order of the
events: `io_context::run()` can return, and no order of events uses a destroyed connection, exactly
when no queued completion is a read or a failure that its handler would act on. -/
theorem clean_end_iff (events : List Event) (server : Server)
    (h : runEvents events = .ok (.running server)) (hsignal : Event.deliverSignal ∈ events) :
    ((∃ more server', runEvents (events ++ more) = .ok (.running server') ∧ server'.Quiet) ↔
      ∀ ptr, ∀ op ∈ server.operations ptr, op.handlerCall = none) ∧
    ((∀ more, runEvents (events ++ more) ≠ .ok .undefinedBehaviour) ↔
      ∀ ptr, ∀ op ∈ server.operations ptr, op.handlerCall = none) := by
  have hdraining := draining_of_signal h hsignal
  have hdoomed : (∀ ptr, ∀ op ∈ server.operations ptr, op.handlerCall = none) ↔
      ¬ server.Doomed := by
    constructor
    · rintro hnone ⟨ptr, -, op, hop, call, hcall⟩
      rw [hnone ptr op hop] at hcall
      cases hcall
    · intro hnot ptr op hop
      cases hcall : op.handlerCall with
      | none => rfl
      | some call =>
        exact absurd ⟨ptr, hdraining.shutDown.not_mem ptr, op, hop, call, hcall⟩ hnot
  rw [hdoomed]
  refine ⟨⟨?_, fun hnot => exists_quiet h hsignal hnot rfl⟩, ⟨?_, fun hnot more hmore => ?_⟩⟩
  · rintro ⟨more, server', hmore, hquiet⟩ hbad
    obtain ⟨ptr, -, op, hop, -⟩ := doomed_run h hbad hmore
    rw [((quiet_iff hmore).mp hquiet).2.2 ptr] at hop
    cases hop
  · intro hnever hbad
    obtain ⟨event, hstep⟩ := hbad.undefinedBehaviour hdraining.healthy
    exact hnever [event] (Fallible.run_snoc_ok.mpr ⟨_, h, hstep⟩)
  · obtain ⟨server', hrunning, -⟩ := running_of_not_doomed h hsignal hnot hmore
    cases hrunning

end

open scoped Host.Libstdcxx in
/-- A client whose reads are pending at the signal: the program can end cleanly. -/
theorem clean_end_iff_client :
    ∃ server, runEvents (acceptAndConnect 0 ++ [.deliver 0 0 (.written 1), .deliverSignal])
        = .ok (.running server) ∧
      ∃ more server', runEvents ((acceptAndConnect 0 ++ [.deliver 0 0 (.written 1), .deliverSignal])
        ++ more) = .ok (.running server') ∧ server'.Quiet := by
  have hrun : runEvents (acceptAndConnect 0 ++ [.deliver 0 0 (.written 1), .deliverSignal])
      = .ok (.running _) := rfl
  refine ⟨_, hrun, (clean_end_iff _ _ hrun (by simp)).1.mpr fun ptr op hop => ?_⟩
  by_cases hptr : ptr < 1
  · obtain rfl := Nat.lt_one_iff.mp hptr
    rcases List.mem_pair.mp hop with rfl | rfl <;> rfl
  · rw [(unborn_of_runEvents hrun).operations hptr] at hop
    cases hop

end Proxy
