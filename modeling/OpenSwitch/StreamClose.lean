import OpenSwitch.StreamRules
/-!
# StreamClose — what `Close` leaves behind (`stream_client.cc`)

The call of `Close` that finds the stream open returns when both threads are gone: it answers with the status `Finish`
gave, and nothing happens to the stream or to the callbacks any more.  It does return: with writes that fail and a read
that ends, which is what a cancelled peer amounts to, the threads come to their end from wherever they are.
-/
namespace Osw
namespace Media
namespace StreamCall

open RpcStream (statuses)

variable {c j : Nat} {s s' : StreamCall c} {r r' : RpcStream.State} {a : StreamCallAct}

/-! ## Nothing after `Close` -/

/-- The `Close` of call `j` has returned, and what it answered is the final status. -/
structure Over (j : Nat) (s : StreamCall c) : Prop where
  closing : s.closing = some (j, .returned)
  opener  : s.opener = .opened
  reader  : s.reader = .done
  writer  : s.WriterGone
  flag    : s.openFlag = false

theorem Inv.over (h : Inv s r) (hc : s.closing = some (j, .returned)) : Over j s := by
  obtain ⟨hsp, ms, sts, hr⟩ := h.running_of_closing hc
  have hcl := hr.closes
  simp only [Closes, hc] at hcl
  exact ⟨hc, hsp.1, hcl.2.2.2, hcl.2.2.1, hcl.2.1⟩

/-- **Nothing follows a `Close` that has returned**: no step does anything to the stream, calls a callback or changes the
status. -/
theorem Over.step (h : Over j s) (hs : s.step a = some s') :
    Over j s' ∧ s'.ops = s.ops ∧ s'.calls = s.calls ∧ s'.finalStatus = s.finalStatus ∧ s.closed <+: s'.closed := by
  obtain ⟨hc, ho, hr, hw, hf⟩ := h
  have hexit : ∀ ok, s.writerStep ok = none := by
    intro ok
    rcases hw with hx | hx <;> simp only [StreamCall.writerStep, hx]
  cases a with
  | sendAudio f | sendControl m =>
    cases hs
    exact ⟨⟨hc, ho, hr, hw, hf⟩, rfl, rfl, rfl, List.prefix_rfl⟩
  | callOpen made => simp [StreamCall.step, StreamCall.callOpen, ho] at hs
  | handshake a => simp [StreamCall.step, StreamCall.handshakeStep, ho] at hs
  | openTimeout => simp [StreamCall.step, StreamCall.openTimeout, ho, Opener.handshaking] at hs
  | writer ok => simp [StreamCall.step, hexit] at hs
  | reader a => simp [StreamCall.step, StreamCall.readerStep, hr] at hs
  | callClose k =>
    simp only [StreamCall.step, StreamCall.callClose, hf, Bool.false_eq_true, if_false] at hs
    cases hs
    exact ⟨⟨hc, ho, hr, hw, rfl⟩, rfl, rfl, rfl, List.prefix_append _ _⟩
  | closer => simp [StreamCall.step, StreamCall.closerStep, hc] at hs
  | drainTimeout => simp [StreamCall.step, StreamCall.drainTimeout, hc] at hs

/-- The call that returns has the final status, and its answer stays. -/
def Reported (s : StreamCall c) : Prop := ∀ j, s.closing = some (j, .returned) → (j, s.finalStatus) ∈ s.closed

/-- Only the step that reports returns. -/
theorem step_returned (hs : s.step a = some s') (hj : s'.closing = some (j, .returned)) :
    s.closing = some (j, .returned) ∨ (j, s'.finalStatus) ∈ s'.closed := by
  unfold StreamCall.step at hs
  split at hs
  case h_8 =>
    cases hs
    unfold StreamCall.callClose at hj
    split at hj
    · cases hj
    · exact .inl hj
  case h_9 =>
    unfold StreamCall.closerStep at hs
    repeat' split at hs
    all_goals cases hs
    all_goals first
      | exact .inr (by cases hj; exact List.mem_append_right _ (List.mem_singleton.2 rfl))
      | cases hj
  all_goals
    try simp only [StreamCall.callOpen, StreamCall.handshakeStep, StreamCall.openTimeout, StreamCall.writerStep,
      StreamCall.readerStep, StreamCall.drainTimeout] at hs
    repeat' split at hs
    all_goals cases hs <;> first | exact .inl hj | cases hj

theorem Reported.step (h : s.Reported) (hi : Inv s r) (hs : s.step a = some s') : s'.Reported := by
  intro j hj
  rcases step_returned hs hj with hold | hnew
  · obtain ⟨-, -, -, hfinal, hpre⟩ := (hi.over hold).step hs
    rw [hfinal]
    exact hpre.subset (h j hold)
  · exact hnew

/-- **`Close` answers with the status of `Finish`, and nothing comes after it**: when the call that found the stream open
has returned, its answer is the one status `Finish` gave, both objects are gone, and however the run goes on, nothing is
done with the stream and no callback is called. -/
theorem close_final (h : 0 < c) (config : StreamConfig) (callbacks : StreamCallbacks) (as bs : List StreamCallAct)
    (s t : StreamCall c) (j : Nat) (hg : Run.along step closesApart as (make h config callbacks) = true)
    (hrun : Run.exec step as (make h config callbacks) = some s) (hj : s.closing = some (j, .returned))
    (ht : Run.exec step bs s = some t) :
    (∃ st, statuses s.ops = [st] ∧ (j, st) ∈ s.closed) ∧ s.stream = false ∧ s.context = false ∧
      t.ops = s.ops ∧ t.calls = s.calls := by
  obtain ⟨⟨r, hi⟩, hrep⟩ := Run.exec_inv_along (I := fun s : StreamCall c => (∃ r, Inv s r) ∧ s.Reported)
    (fun _ _ _ hu hg hs => by
      obtain ⟨⟨_, hi⟩, hrep⟩ := hu
      exact ⟨hi.step hg hs, hrep.step hi hs⟩) as _ s
    ⟨⟨_, inv_make h config callbacks⟩, fun j hx => by cases hx⟩ hg hrun
  have hover := hi.over hj
  obtain ⟨-, ms, sts, hr⟩ := hi.running_of_closing hj
  have hheard := hr.heard
  have hcl := hr.closes
  simp only [Heard, hover.reader] at hheard
  simp only [Closes, hj] at hcl
  have hlater := Run.exec_inv (I := fun u : StreamCall c => Over j u ∧ u.ops = s.ops ∧ u.calls = s.calls)
    (fun u _ u' hu hs => by
      obtain ⟨hu', hops, hcalls, -⟩ := hu.1.step hs
      exact ⟨hu', hops.trans hu.2.1, hcalls.trans hu.2.2⟩) bs s t ⟨hover, rfl, rfl⟩ ht
  exact ⟨⟨s.finalStatus, hr.saw.statuses.trans hheard.1, hrep j hj⟩,
    Bool.eq_false_iff.2 fun hx => by simpa [hcl.1] using hi.stream.1 hx,
    Bool.eq_false_iff.2 fun hx => by simpa [hcl.1] using hi.context.1 hx, hlater.2⟩

theorem close_final_drainRun :
    (Run.exec step (drainRun ++ [.callClose 3]) sttStream).map (fun s => (s.closing, s.closed)) =
      some (some (1, .returned), [(2, statusOk), (1, gone.status), (3, gone.status)]) ∧
    ∀ s t, Run.exec step drainRun sttStream = some s →
      s.closing = some (1, .returned) → Run.exec step [.callClose 3] s = some t →
      (∃ st, statuses s.ops = [st] ∧ (1, st) ∈ s.closed) ∧ s.stream = false ∧ s.context = false ∧
        t.ops = s.ops ∧ t.calls = s.calls :=
  ⟨by decide +kernel, fun s t => close_final _ _ _ drainRun _ s t 1 (by decide +kernel)⟩

/-! ## `Close` returns -/

/-- The steps that are left when the peer is cancelled: writes fail, the read ends. -/
def Drains (a : StreamCallAct) : Prop := a = .writer false ∨ a = .reader gone ∨ a = .closer

/-- From here the `Close` of call `j` returns. -/
def Ends (j : Nat) (s : StreamCall c) : Prop := ∃ t, Run.Reaches step Drains s t ∧ t.closing = some (j, .returned)

/-- The `Close` of call `j` is under way. -/
structure Draining (j : Nat) (s : StreamCall c) : Prop where
  closing : ∃ ph, s.closing = some (j, ph) ∧ (ph = .joinWriter → s.client.ringClosed = true)
  reader  : s.reader ≠ .unspawned
  writer  : s.exit = .running → s.client.writer ≠ .exited

def closeRank : ClosePhase → Nat
  | .closeRing    => 6
  | .joinWriter   => 5
  | .joinReader _ => 4
  | .dropStream   => 3
  | .dropContext  => 2
  | .report       => 1
  | .returned     => 0

def readerRank : StreamReader → Nat
  | .dispatching _ => 5
  | .reading       => 4
  | .finishing     => 3
  | .storing _     => 2
  | .notifying _   => 1
  | .done | .unspawned => 0

def writerRank : WriterExit → UpstreamWriter → Nat
  | .running, .waiting => 4
  | .running, _ => 3
  | .claim, _   => 2
  | .sending, _ => 1
  | .done, _ | .unspawned, _ => 0

/-- How much there is to do. -/
def drainRank (s : StreamCall c) : Nat :=
  (s.closing.elim 0 fun x => closeRank x.2) + writerRank s.exit s.client.writer + readerRank s.reader

theorem Draining.closer {ph : ClosePhase} (h : Draining j s) (hc : s.closing = some (j, ph)) (hph : ph ≠ .returned)
    (hw : ph = .joinWriter → s.WriterGone) (hr : ∀ b, ph = .joinReader b → s.reader = .done) :
    ∃ s', s.step .closer = some s' ∧ Draining j s' ∧ s'.drainRank < s.drainRank := by
  cases ph <;> simp only [StreamCall.step, StreamCall.closerStep, hc]
  case returned => exact absurd rfl hph
  case joinWriter =>
    exact ⟨_, if_pos (hw rfl), ⟨⟨_, rfl, by simp⟩, h.reader, h.writer⟩, by simp [drainRank, hc, closeRank]⟩
  case joinReader b =>
    exact ⟨_, if_pos (.inr (hr b rfl)), ⟨⟨_, rfl, by simp⟩, h.reader, h.writer⟩, by simp [drainRank, hc, closeRank]⟩
  all_goals
    exact ⟨_, rfl, ⟨⟨_, rfl, by simp [StreamClient.close]⟩, h.reader, h.writer⟩,
      by simp [drainRank, hc, closeRank, StreamClient.close]⟩

theorem Draining.runReader (h : Draining j s) (hd : s.reader ≠ .done) :
    ∃ s', s.step (.reader gone) = some s' ∧ Draining j s' ∧ s'.drainRank < s.drainRank := by
  cases hre : s.reader with
  | unspawned => exact absurd hre h.reader
  | done => exact absurd hre hd
  | _ =>
    simp only [StreamCall.step, StreamCall.readerStep, hre, gone]
    exact ⟨_, rfl, ⟨h.closing, by simp, h.writer⟩, by simp [drainRank, readerRank, hre, record]⟩

theorem Draining.runWriter (h : Draining j s) (hw : ¬s.WriterGone) (hring : s.client.ringClosed = true) :
    ∃ s', s.step (.writer false) = some s' ∧ Draining j s' ∧ s'.drainRank < s.drainRank := by
  obtain ⟨ph, hc, -⟩ := h.closing
  cases hex : s.exit with
  | unspawned => exact absurd (.inl hex) hw
  | done => exact absurd (.inr hex) hw
  | sending =>
    simp only [StreamCall.step, StreamCall.writerStep, hex]
    exact ⟨_, rfl, ⟨⟨ph, hc, fun _ => hring⟩, h.reader, by simp⟩, by simp [drainRank, writerRank, hex, record]⟩
  | claim =>
    simp only [StreamCall.step, StreamCall.writerStep, hex]
    split <;> exact ⟨_, rfl, ⟨⟨ph, hc, fun _ => hring⟩, h.reader, by simp⟩, by simp [drainRank, writerRank, hex]⟩
  | running =>
    simp only [StreamCall.step, StreamCall.writerStep, hex, StreamClient.writerStep]
    cases hwr : s.client.writer with
    | exited => exact absurd hwr (h.writer hex)
    | writing m =>
      exact ⟨_, rfl, ⟨⟨ph, hc, fun _ => hring⟩, h.reader, by simp⟩, by simp [drainRank, writerRank, hex, hwr]⟩
    | waiting =>
      by_cases hcount : s.client.ring.ring.count = 0
      · simp only [hcount, hring, ne_eq, not_true_eq_false, if_false, if_true]
        exact ⟨_, rfl, ⟨⟨ph, hc, fun _ => rfl⟩, h.reader, by simp⟩, by simp [drainRank, writerRank, hex, hwr]⟩
      · simp only [hcount, ne_eq, not_false_eq_true, if_true]
        exact ⟨_, rfl, ⟨⟨ph, hc, fun _ => hring⟩, h.reader, by simp⟩, by simp [drainRank, writerRank, hex, hwr]⟩

/-- Whatever `Close` waits for has a step left. -/
theorem Draining.progress (h : Draining j s) (hret : ¬s.closing = some (j, .returned)) :
    ∃ a s', Drains a ∧ s.step a = some s' ∧ Draining j s' ∧ s'.drainRank < s.drainRank := by
  obtain ⟨ph, hc, hring⟩ := h.closing
  by_cases hw : ph = .joinWriter ∧ ¬s.WriterGone
  · obtain ⟨s', hs⟩ := h.runWriter hw.2 (hring hw.1)
    exact ⟨_, s', .inl rfl, hs⟩
  · by_cases hr : (∃ b, ph = .joinReader b) ∧ s.reader ≠ .done
    · obtain ⟨s', hs⟩ := h.runReader hr.2
      exact ⟨_, s', .inr (.inl rfl), hs⟩
    · obtain ⟨s', hs⟩ := h.closer hc (fun hp => hret (hp ▸ hc)) (fun hp => by_contra fun hx => hw ⟨hp, hx⟩)
        (fun b hp => by_contra fun hx => hr ⟨⟨b, hp⟩, hx⟩)
      exact ⟨_, s', .inr (.inr rfl), hs⟩

/-- **`Close` can return**: wherever a run has come to with a `Close` under way, on a thread that is not the stream's, it
returns when the writes that are left fail and the read ends, as they do on a cancelled stream. -/
theorem close_ends (h : 0 < c) (config : StreamConfig) (callbacks : StreamCallbacks) (acts : List StreamCallAct)
    (s : StreamCall c) (j : Nat) (ph : ClosePhase)
    (hg : Run.along step closesApart acts (make h config callbacks) = true)
    (hrun : Run.exec step acts (make h config callbacks) = some s) (hj : s.closing = some (j, ph)) : Ends j s := by
  obtain ⟨r, hi⟩ := inv_of_run h hg hrun
  obtain ⟨-, ms, sts, hr⟩ := hi.running_of_closing hj
  refine Run.reaches_of_rank drainRank (fun _ hd hret => Draining.progress hd hret) s ⟨⟨ph, hj, ?_⟩, hr.spawned, ?_⟩
  · rintro rfl
    have hcl := hr.closes
    simp only [Closes, hj] at hcl
    exact hcl.2.2
  · intro hex
    have hsends := hr.sends
    simp only [Wrote, hex] at hsends
    exact hsends.2.1

theorem close_ends_drainRun :
    (Run.exec step (drainRun.take 16) sttStream).map (fun s => (s.closing, s.exit)) =
      some (some (1, .joinWriter), .claim) ∧
    ∀ s, Run.exec step (drainRun.take 16) sttStream = some s → s.closing = some (1, .joinWriter) → Ends 1 s :=
  ⟨by decide +kernel, fun s => close_ends _ _ _ _ s 1 _ (by decide +kernel)⟩

end StreamCall
end Media
end Osw
