import OpenSwitch.StreamCall
/-!
# StreamRules — a media stream keeps the rules of gRPC

For each phase of `Open`, and while the threads run, the invariant says where the record of operations has led the rules
of `RpcStream`, what the peer was sent and what it sent, and which callbacks have run.
-/
namespace Osw
namespace Media
namespace StreamCall

open RpcStream (Op Sends Reads Objects Leads sent received statuses)

variable {c : Nat} {s s' : StreamCall c} {r r' : RpcStream.State} {sts : List GrpcStatus}
  {ops : List (Op FromModule FromService GrpcStatus)} {a : Answer} {ms : List FromService} {ok : Bool}
  {k : StreamClient c}

/-! ## What holds in each phase -/

/-- What the record has: what was sent, what was received, and the final statuses. -/
structure Saw (s : StreamCall c) (up : List FromModule) (down : List FromService) (sts : List GrpcStatus) : Prop where
  sent     : sent s.ops = up
  received : received s.ops = down
  statuses : statuses s.ops = sts

/-- How the handshake leaves the sending side. -/
def firstSends (s : StreamCall c) : Sends := if s.config.halfCloseWritesAfterStart then .halfClosed else .open

/-- The threads are not there, and nobody closes. -/
structure Quiet (s : StreamCall c) : Prop where
  closing : s.closing = none
  reader  : s.reader = .unspawned
  exit    : s.exit = .unspawned
  calls   : s.calls = []
  written : s.client.written = []
  writer  : s.client.writer = .waiting
  flag    : s.config.halfCloseWritesAfterStart = false → s.writesDone = false

/-- The callbacks for what the peer sent. -/
def heard (s : StreamCall c) (ms : List FromService) : List StreamCallback :=
  ms.filterMap fun m => (dispatch s.callbacks s.agreed m).join

/-- The reader has read `ms` and asked for `sts`. -/
def Heard (s : StreamCall c) (ms : List FromService) (sts : List GrpcStatus) : Prop :=
  match s.reader with
  | .unspawned | .reading | .finishing => sts = [] ∧ s.calls = s.heard ms
  | .dispatching cb => sts = [] ∧ s.calls ++ cb.toList = s.heard ms
  | .storing st     => sts = [st] ∧ s.calls = s.heard ms
  | .notifying st   => sts = [st] ∧ s.calls = s.heard ms ∧ s.finalStatus = st
  | .done           =>
    sts = [s.finalStatus] ∧ s.calls = s.heard ms ++ if s.callbacks.onDone then [.done s.finalStatus] else []

def readsOf : StreamReader → Reads
  | .unspawned | .reading | .dispatching _ => .open
  | .finishing => .ended
  | .storing _ | .notifying _ | .done => .finished

/-- Where the writer has brought the sending side. -/
def Wrote (s : StreamCall c) (x : Sends) : Prop :=
  match s.exit with
  | .unspawned => x = s.firstSends ∧ s.client.writer = .waiting ∧
      (s.config.halfCloseWritesAfterStart = false → s.writesDone = false)
  | .running   => x = .open ∧ s.client.writer ≠ .exited ∧ s.writesDone = false
  | .claim     => x = .open ∧ s.writesDone = false
  | .sending   => x = .open
  | .done      => x ≠ .open

/-- The writer has ended, or there is none. -/
def WriterGone (s : StreamCall c) : Prop := s.exit = .unspawned ∨ s.exit = .done

/-- Which objects a `Close` has left, and whom it has waited for. -/
def Closes (s : StreamCall c) (o : Objects) : Prop :=
  match s.closing with
  | none => o = .both ∧ s.openFlag = true
  | some (_, .closeRing) => o = .both ∧ s.openFlag = false
  | some (_, .joinWriter) => o = .both ∧ s.openFlag = false ∧ s.client.ringClosed = true
  | some (_, .joinReader _) => o = .both ∧ s.openFlag = false ∧ s.WriterGone
  | some (_, .dropStream) => o = .both ∧ s.openFlag = false ∧ s.WriterGone ∧ s.reader = .done
  | some (_, .dropContext) => o = .context ∧ s.openFlag = false ∧ s.WriterGone ∧ s.reader = .done
  | some (_, .report) | some (_, .returned) => o = .dropped ∧ s.openFlag = false ∧ s.WriterGone ∧ s.reader = .done

/-- What holds while the threads run. -/
structure Running (s : StreamCall c) (r : RpcStream.State) (ms : List FromService) (sts : List GrpcStatus) : Prop where
  saw     : s.Saw (.start s.config.start :: s.client.written.map .msg) (.ready s.agreed :: ms) sts
  heard   : s.Heard ms sts
  reads   : r.reads = readsOf s.reader
  sends   : s.Wrote r.sends
  closes  : s.Closes r.objects
  spawned : s.reader ≠ .unspawned

/-- The threads that `Open` has started. -/
def Spawned (s : StreamCall c) : Prop :=
  s.opener = .spawnWriter ∧ s.closing = none ∧ s.exit = .unspawned ∧ s.config.halfCloseWritesAfterStart = false ∨
  s.opener = .opened ∧ (s.exit = .unspawned → s.config.halfCloseWritesAfterStart = true)

/-- What holds at each step of `Open`. -/
def Opens (s : StreamCall c) (r : RpcStream.State) : Prop :=
  match s.opener with
  | .idle       => s.Quiet ∧ s.openFlag = false ∧ r = RpcStream.start ∧ s.Saw [] [] []
  | .writeStart => s.Quiet ∧ s.openFlag = false ∧ r = ⟨.open, .open, .both⟩ ∧ s.Saw [] [] []
  | .readReady  => s.Quiet ∧ s.openFlag = false ∧ r = ⟨.open, .open, .both⟩ ∧ s.Saw [.start s.config.start] [] []
  | .finishing _ =>
    s.Quiet ∧ s.openFlag = false ∧ r.objects = .both ∧ (r.reads = .ended ∨ r.reads = .open ∧ r.sends = .broken)
  | .closeRing m | .writesDone m =>
    s.Quiet ∧ s.openFlag = false ∧ r = ⟨.open, .open, .both⟩ ∧ s.Saw [.start s.config.start] [.ready m] [] ∧
      s.config.halfCloseWritesAfterStart = true
  | .markDone m =>
    s.Quiet ∧ s.openFlag = false ∧ r = ⟨.halfClosed, .open, .both⟩ ∧ s.Saw [.start s.config.start] [.ready m] [] ∧
      s.config.halfCloseWritesAfterStart = true
  | .resolved (.ready m) =>
    s.Quiet ∧ s.openFlag = false ∧ r = ⟨s.firstSends, .open, .both⟩ ∧ s.Saw [.start s.config.start] [.ready m] []
  | .resolved (.fail _) | .dropStream _ => s.Quiet ∧ s.openFlag = false ∧ r.objects = .both
  | .dropContext _ => s.Quiet ∧ s.openFlag = false ∧ r.objects = .context
  | .failed _ => s.Quiet ∧ s.openFlag = false ∧ (r.objects = .dropped ∨ r.objects = .unmade)
  | .setOpen =>
    s.Quiet ∧ s.openFlag = false ∧ r = ⟨s.firstSends, .open, .both⟩ ∧ s.Saw [.start s.config.start] [.ready s.agreed] []
  | .spawnReader =>
    s.Quiet ∧ s.openFlag = true ∧ r = ⟨s.firstSends, .open, .both⟩ ∧ s.Saw [.start s.config.start] [.ready s.agreed] []
  | .spawnWriter | .opened => s.Spawned ∧ ∃ ms sts, s.Running r ms sts

structure Inv (s : StreamCall c) (r : RpcStream.State) : Prop where
  leads   : Leads s.ops r
  stream  : s.stream = true ↔ r.objects = .both
  context : s.context = true ↔ r.objects = .both ∨ r.objects = .context
  opens   : s.Opens r

theorem inv_make (h : 0 < c) (config : StreamConfig) (callbacks : StreamCallbacks) :
    Inv (make h config callbacks) RpcStream.start where
  leads := RpcStream.leads_nil
  stream := by simp [make, RpcStream.start]
  context := by simp [make, RpcStream.start]
  opens := ⟨⟨rfl, rfl, rfl, rfl, rfl, rfl, fun _ => rfl⟩, rfl, rfl, rfl, rfl, rfl⟩

/-! ## Steps the phases do not see -/

/-- Nothing was sent, received or answered. -/
def SameSaw (s s' : StreamCall c) : Prop :=
  ∀ up down sts, s.Saw up down sts → s'.Saw up down sts

theorem Saw.of_ops {up : List FromModule} {down : List FromService} (h : s.Saw up down sts) (hops : s'.ops = s.ops) :
    s'.Saw up down sts :=
  ⟨hops ▸ h.sent, hops ▸ h.received, hops ▸ h.statuses⟩

theorem SameSaw.of_silent (hops : s'.ops = s.ops ++ ops) (hs : sent ops = []) (hr : received ops = [])
    (hst : statuses ops = []) : SameSaw s s' := fun up down sts h => by
  refine ⟨?_, ?_, ?_⟩ <;> rw [hops]
  · rw [RpcStream.sent_append, hs, List.append_nil, h.sent]
  · rw [RpcStream.received_append, hr, List.append_nil, h.received]
  · rw [RpcStream.statuses_append, hst, List.append_nil, h.statuses]

theorem Quiet.keep (h : s.Quiet)
    (hsame : (s'.closing, s'.reader, s'.exit, s'.calls, s'.client.written, s'.client.writer, s'.config, s'.writesDone) =
      (s.closing, s.reader, s.exit, s.calls, s.client.written, s.client.writer, s.config, s.writesDone)) : s'.Quiet := by
  simp only [Prod.mk.injEq] at hsame
  obtain ⟨hcl, hr, he, hca, hw, hwr, hco, hd⟩ := hsame
  exact ⟨hcl ▸ h.closing, hr ▸ h.reader, he ▸ h.exit, hca ▸ h.calls, hw ▸ h.written, hwr ▸ h.writer,
    fun hf => hd ▸ h.flag (hco ▸ hf)⟩

/-- The client with what the phases speak of as it was: the writer, what it has written, and the end of the ring. -/
def SameWriter (k k' : StreamClient c) : Prop :=
  k'.written = k.written ∧ k'.writer = k.writer ∧ k'.ringClosed = k.ringClosed

section
variable {k : StreamClient c} {e : Bool} {closed : List (Nat × GrpcStatus)}
  {ops : List (Op FromModule FromService GrpcStatus)}

theorem Running.of_same (h : s.Running r ms sts) (hk : SameWriter s.client k) (hsaw : SameSaw s { s with ops }) :
    Running { s with client := k, expired := e, closed, ops } r ms sts := by
  obtain ⟨hwn, hwr, hrc⟩ := hk
  refine ⟨?_, h.heard, h.reads, ?_, ?_, h.spawned⟩
  · rw [hwn]
    exact (hsaw _ _ _ h.saw).of_ops rfl
  · simpa only [Wrote, firstSends, hwr] using h.sends
  · simpa only [Closes, WriterGone, hrc] using h.closes

theorem Opens.of_same (h : s.Opens r) (hk : SameWriter s.client k) (hsaw : SameSaw s { s with ops }) :
    Opens { s with client := k, expired := e, closed, ops } r := by
  have hquiet : s.Quiet → ∀ o, Quiet { s with client := k, opener := o, expired := e, closed, ops } := fun hq _ =>
    ⟨hq.closing, hq.reader, hq.exit, hq.calls, hk.1.trans hq.written, hk.2.1.trans hq.writer, hq.flag⟩
  cases ho : s.opener with
  | resolved res =>
    cases res <;> simp only [Opens, ho] at h ⊢
    · exact ⟨hquiet h.1 _, h.2⟩
    · exact ⟨hquiet h.1 _, h.2.1, h.2.2.1, (hsaw _ _ _ h.2.2.2).of_ops rfl⟩
  | idle | writeStart | readReady | setOpen | spawnReader =>
    simp only [Opens, ho] at h ⊢
    exact ⟨hquiet h.1 _, h.2.1, h.2.2.1, (hsaw _ _ _ h.2.2.2).of_ops rfl⟩
  | closeRing m | writesDone m | markDone m =>
    simp only [Opens, ho] at h ⊢
    exact ⟨hquiet h.1 _, h.2.1, h.2.2.1, (hsaw _ _ _ h.2.2.2.1).of_ops rfl, h.2.2.2.2⟩
  | finishing _ | dropStream _ | dropContext _ | failed _ =>
    simp only [Opens, ho] at h ⊢
    exact ⟨hquiet h.1 _, h.2⟩
  | spawnWriter | opened =>
    simp only [Opens, Spawned, ho] at h ⊢
    obtain ⟨hsp, ms, sts, hr⟩ := h
    exact ⟨hsp, ms, sts, ho ▸ hr.of_same hk hsaw⟩

end

/-! ## The steps of `Open` -/

theorem Saw.record {up : List FromModule} {down : List FromService} (h : s.Saw up down sts)
    (op : Op FromModule FromService GrpcStatus) : (s.record op).Saw (up ++ RpcStream.sent [op])
      (down ++ RpcStream.received [op]) (sts ++ RpcStream.statuses [op]) := by
  refine ⟨?_, ?_, ?_⟩
  · rw [StreamCall.record, RpcStream.sent_append, h.sent]
  · rw [StreamCall.record, RpcStream.received_append, h.received]
  · rw [StreamCall.record, RpcStream.statuses_append, h.statuses]

theorem Inv.callOpen (h : Inv s r) {made : Bool} (hs : s.callOpen made = some s') : ∃ r', Inv s' r' := by
  unfold StreamCall.callOpen at hs
  split at hs
  · cases hs
  · rename_i hidle
    have hopens := h.opens
    simp only [not_not] at hidle
    simp only [Opens, hidle] at hopens
    obtain ⟨hq, hflag, rfl, hsaw⟩ := hopens
    split at hs <;> cases hs
    · exact ⟨⟨.open, .open, .both⟩, h.leads.snoc rfl, by simp, by simp, hq.keep rfl, hflag, rfl, (hsaw.record .create).of_ops rfl⟩
    · exact ⟨_, h.leads, h.stream, h.context, hq.keep rfl, hflag, .inr rfl⟩

theorem Inv.writeStart (h : Inv s r) (ho : s.opener = .writeStart) (hs : s.handshakeStep a = some s') :
    ∃ r', Inv s' r' := by
  simp only [StreamCall.handshakeStep, ho] at hs
  cases hs
  have hopens := h.opens
  simp only [Opens, ho] at hopens
  obtain ⟨hq, hflag, rfl, hsaw⟩ := hopens
  cases hok : a.ok with
  | true =>
    exact ⟨⟨.open, .open, .both⟩, h.leads.snoc rfl, h.stream, h.context, hq.keep rfl, hflag, rfl,
      (hsaw.record (.write (.start s.config.start) true)).of_ops rfl⟩
  | false =>
    exact ⟨⟨.broken, .open, .both⟩, h.leads.snoc rfl, h.stream, h.context, hq.keep rfl, hflag, rfl, .inr ⟨rfl, rfl⟩⟩

theorem Inv.readReady (h : Inv s r) (ho : s.opener = .readReady) (hs : s.handshakeStep a = some s') :
    ∃ r', Inv s' r' := by
  simp only [StreamCall.handshakeStep, ho] at hs
  cases hs
  have hopens := h.opens
  simp only [Opens, ho] at hopens
  obtain ⟨hq, hflag, rfl, hsaw⟩ := hopens
  cases hm : a.msg with
  | none =>
    exact ⟨⟨.open, .ended, .both⟩, h.leads.snoc rfl, h.stream, h.context, hq.keep rfl, hflag, rfl, .inl rfl⟩
  | some m =>
    have hleads : Leads (s.ops ++ [.read (some m)]) ⟨.open, .open, .both⟩ := h.leads.snoc rfl
    refine ⟨_, hleads, h.stream, h.context, ?_⟩
    cases m with
    | ready m =>
      have hsaw' : (s.record (.read (some (.ready m)))).Saw [.start s.config.start] [.ready m] [] :=
        hsaw.record (.read (some (.ready m)))
      cases hhalf : s.config.halfCloseWritesAfterStart with
      | true =>
        simp only [Opens, if_true]
        exact ⟨hq.keep rfl, hflag, trivial, hsaw'.of_ops rfl, hhalf⟩
      | false =>
        simp only [Opens, Bool.false_eq_true, if_false]
        exact ⟨hq.keep rfl, hflag, by simp [firstSends, record, hhalf], hsaw'.of_ops rfl⟩
    | _ => exact ⟨hq.keep rfl, hflag, rfl⟩

/-- The start of the reader: it has read nothing yet. -/
theorem Quiet.running (h : s.Quiet) (hflag : s.openFlag = true)
    (hsaw : s.Saw [.start s.config.start] [.ready s.agreed] []) (o : Opener) :
    Running { s with reader := .reading, opener := o } ⟨s.firstSends, .open, .both⟩ [] [] where
  saw := by rw [h.written]; exact hsaw.of_ops rfl
  heard := ⟨rfl, h.calls⟩
  reads := rfl
  sends := by rw [Wrote, h.exit]; exact ⟨rfl, h.writer, h.flag⟩
  closes := by rw [Closes, h.closing]; exact ⟨rfl, hflag⟩
  spawned := fun hx => by cases hx

/-- The start of the writer. -/
theorem Running.spawnWriter (h : s.Running r ms sts) (hclosing : s.closing = none) (hexit : s.exit = .unspawned)
    (hhalf : s.config.halfCloseWritesAfterStart = false) :
    Running { s with exit := .running, opener := .opened } r ms sts := by
  have hsends := h.sends
  have hcloses := h.closes
  simp only [Wrote, hexit, firstSends, hhalf, Bool.false_eq_true, if_false] at hsends
  simp only [Closes, hclosing] at hcloses
  refine ⟨h.saw.of_ops rfl, h.heard, h.reads, ⟨hsends.1, ?_, hsends.2.2 trivial⟩, ?_, h.spawned⟩
  · rw [hsends.2.1]
    exact fun hx => by cases hx
  · simp only [Closes, hclosing]
    exact hcloses

/-- The steps of the handshake thread, and of `Open` behind it. -/
theorem Inv.handshakeStep (h : Inv s r) (hs : s.handshakeStep a = some s') : ∃ r', Inv s' r' := by
  have hopens := h.opens
  cases ho : s.opener <;> simp only [Opens, ho] at hopens
  case writeStart => exact h.writeStart ho hs
  case readReady => exact h.readReady ho hs
  all_goals
    simp only [StreamCall.handshakeStep, ho] at hs
    try cases hs
  case finishing =>
    obtain ⟨hq, hflag, hobj, hends⟩ := hopens
    exact ⟨{ r with reads := .finished }, h.leads.snoc (if_pos ⟨hobj, hends⟩), h.stream, h.context, hq.keep rfl, hflag, hobj⟩
  case closeRing =>
    obtain ⟨hq, hflag, hr, hsaw, hhalf⟩ := hopens
    exact ⟨_, h.leads, h.stream, h.context, hq.keep rfl, hflag, hr, hsaw.of_ops rfl, hhalf⟩
  case writesDone =>
    obtain ⟨hq, hflag, rfl, hsaw, hhalf⟩ := hopens
    exact ⟨⟨.halfClosed, .open, .both⟩, h.leads.snoc rfl, h.stream, h.context, hq.keep rfl, hflag, rfl,
      (hsaw.record .writesDone).of_ops rfl, hhalf⟩
  case markDone =>
    obtain ⟨hq, hflag, rfl, hsaw, hhalf⟩ := hopens
    exact ⟨_, h.leads, h.stream, h.context, ⟨hq.closing, hq.reader, hq.exit, hq.calls, hq.written, hq.writer,
      fun hf => absurd (hf.symm.trans hhalf) (by decide)⟩, hflag, by simp [firstSends, hhalf], hsaw.of_ops rfl⟩
  case resolved res =>
    have hboth : s.Quiet ∧ s.openFlag = false ∧ r.objects = .both := by
      cases res with
      | fail st => exact hopens
      | ready m => exact ⟨hopens.1, hopens.2.1, by rw [hopens.2.2.1]⟩
    split at hs
    · cases hs
      exact ⟨_, h.leads, h.stream, h.context, hboth.1.keep rfl, hboth.2⟩
    · cases res with
      | fail st =>
        cases hs
        exact ⟨_, h.leads, h.stream, h.context, hboth.1.keep rfl, hboth.2⟩
      | ready m =>
        cases hs
        obtain ⟨hq, hflag, hr, hsaw⟩ := hopens
        exact ⟨_, h.leads, h.stream, h.context, hq.keep rfl, hflag, hr, hsaw.of_ops rfl⟩
  case dropStream =>
    obtain ⟨hq, hflag, hobj⟩ := hopens
    exact ⟨{ r with objects := .context }, h.leads.snoc (if_pos hobj), by simp,
      by simpa [record, hobj] using h.context, hq.keep rfl, hflag, rfl⟩
  case dropContext =>
    obtain ⟨hq, hflag, hobj⟩ := hopens
    exact ⟨{ r with objects := .dropped }, h.leads.snoc (if_pos hobj), by simpa [record, hobj] using h.stream,
      by simp, hq.keep rfl, hflag, .inl rfl⟩
  case setOpen =>
    obtain ⟨hq, -, hr, hsaw⟩ := hopens
    exact ⟨_, h.leads, h.stream, h.context, hq.keep rfl, rfl, hr, hsaw.of_ops rfl⟩
  case spawnReader =>
    obtain ⟨hq, hflag, rfl, hsaw⟩ := hopens
    refine ⟨_, h.leads, h.stream, h.context, ?_⟩
    cases hhalf : s.config.halfCloseWritesAfterStart with
    | true =>
      simp only [Opens, if_true]
      exact ⟨.inr ⟨rfl, fun _ => hhalf⟩, [], [], hq.running hflag hsaw _⟩
    | false =>
      simp only [Opens, Bool.false_eq_true, if_false]
      exact ⟨.inl ⟨rfl, hq.closing, hq.exit, hhalf⟩, [], [], hq.running hflag hsaw _⟩
  case spawnWriter =>
    obtain ⟨⟨-, hclosing, hexit, hhalf⟩ | ⟨ho', -⟩, ms, sts, hrun⟩ := hopens
    · exact ⟨_, h.leads, h.stream, h.context, .inr ⟨rfl, fun hx => by cases hx⟩, ms, sts,
        hrun.spawnWriter hclosing hexit hhalf⟩
    · rw [ho] at ho'
      cases ho'

/-! ## The other threads -/

theorem Inv.openTimeout (h : Inv s r) (hs : s.openTimeout = some s') : ∃ r', Inv s' r' := by
  unfold StreamCall.openTimeout at hs
  split at hs <;> cases hs
  rename_i hg
  rw [Bool.and_eq_true] at hg
  have hboth : r.objects = .both := by
    have hopens := h.opens
    unfold Opens at hopens
    cases ho : s.opener with
    | resolved res => cases res <;> simp only [ho] at hopens <;> simp [hopens]
    | idle | dropStream _ | dropContext _ | failed _ | setOpen | spawnReader | spawnWriter | opened =>
      simp [Opener.handshaking, ho] at hg
    | _ =>
      simp only [ho] at hopens
      simp [hopens]
  have hleads : Leads (s.ops ++ [.tryCancel]) r := h.leads.snoc (if_pos (.inl hboth))
  exact ⟨r, hleads, h.stream, h.context, h.opens.of_same ⟨rfl, rfl, rfl⟩ (.of_silent rfl rfl rfl rfl)⟩

/-- Either no thread is there, or `Open` has started them. -/
theorem Inv.quiet_or_running (h : Inv s r) :
    s.Quiet ∧ (s.openFlag = true → s.opener = .spawnReader) ∨ s.Spawned ∧ ∃ ms sts, s.Running r ms sts := by
  have hopens := h.opens
  unfold Opens at hopens
  cases ho : s.opener with
  | resolved res => cases res <;> simp only [ho] at hopens <;> exact .inl ⟨hopens.1, by simp [hopens.2.1]⟩
  | spawnWriter | opened =>
    simp only [ho] at hopens
    exact .inr hopens
  | spawnReader =>
    simp only [ho] at hopens
    exact .inl ⟨hopens.1, fun _ => rfl⟩
  | _ =>
    simp only [ho] at hopens
    exact .inl ⟨hopens.1, by simp [hopens.2.1]⟩

/-- The invariant from what holds while the threads run. -/
theorem Inv.of_running (hl : Leads s.ops r) (hst : s.stream = true ↔ r.objects = .both)
    (hcx : s.context = true ↔ r.objects = .both ∨ r.objects = .context) (hsp : s.Spawned) (hr : s.Running r ms sts) :
    Inv s r := by
  refine ⟨hl, hst, hcx, ?_⟩
  unfold Opens
  rcases hsp with ⟨ho, hrest⟩ | ⟨ho, hrest⟩
  · rw [ho]
    exact ⟨.inl ⟨ho, hrest⟩, ms, sts, hr⟩
  · rw [ho]
    exact ⟨.inr ⟨ho, hrest⟩, ms, sts, hr⟩

/-- While the writer is at work, a `Close` has not come past waiting for it. -/
theorem Closes.of_writer {o : Objects} (h : s.Closes o) (hw : ¬s.WriterGone) :
    o = .both ∧ ∀ s' : StreamCall c, s'.closing = s.closing → s'.openFlag = s.openFlag →
      s'.client.ringClosed = s.client.ringClosed → s'.Closes o := by
  unfold Closes at h
  refine ⟨?_, fun s' hcl hfl hrc => ?_⟩
  · split at h
    all_goals first | exact h.1 | exact absurd h.2.2.1 hw
  · rw [Closes, hcl, hfl, hrc]
    split at h
    iterate 3 · exact h
    · exact absurd h.2.2 hw
    all_goals exact absurd h.2.2.1 hw

/-- While the reader is at work, a `Close` has not come past waiting for it. -/
theorem Closes.of_reader {o : Objects} (h : s.Closes o) (hr : s.reader ≠ .done) :
    o = .both ∧ ∀ s' : StreamCall c, s'.closing = s.closing → s'.openFlag = s.openFlag →
      s'.client.ringClosed = s.client.ringClosed → s'.exit = s.exit → s'.Closes o := by
  unfold Closes at h
  refine ⟨?_, fun s' hcl hfl hrc hex => ?_⟩
  · split at h
    all_goals first | exact h.1 | exact absurd h.2.2.2 hr
  · unfold WriterGone at h
    rw [Closes, WriterGone, hcl, hfl, hrc, hex]
    split at h
    iterate 4 · exact h
    all_goals exact absurd h.2.2.2 hr

theorem ringClosed_writerStep {k' : StreamClient c} (h : k.writerStep ok = some k') : k'.ringClosed = k.ringClosed := by
  cases StreamClient.turn_of_writerStep h <;> rfl

/-- A step of the writer, with the rest of the stream as it was. -/
theorem Inv.of_writer (h : Inv s r) (hsp : s.Spawned) (hr : s.Running r ms sts) (hw : ¬s.WriterGone) {e : WriterExit}
    {d : Bool} {x : Sends} (hl : Leads ops { r with sends := x })
    (hring : k.ringClosed = s.client.ringClosed) (he : e ≠ .unspawned)
    (hsaw : Saw { s with ops } (.start s.config.start :: k.written.map .msg) (.ready s.agreed :: ms) sts)
    (hwrote : Wrote { s with client := k, exit := e, writesDone := d } x) :
    ∃ r', Inv { s with client := k, exit := e, writesDone := d, ops } r' := by
  have hopened : s.opener = .opened := hsp.elim (fun hx => absurd (.inl hx.2.2.1) hw) And.left
  exact ⟨_, .of_running hl h.stream h.context (.inr ⟨hopened, fun hx => absurd hx he⟩)
    ⟨hsaw.of_ops rfl, hr.heard, hr.reads, hwrote, (hr.closes.of_writer hw).2 _ rfl rfl hring, hr.spawned⟩⟩

/-- A step of the writer's loop: it pops, leaves, or writes. -/
theorem Inv.writerLoop (h : Inv s r) (hsp : s.Spawned) (hr : s.Running r ms sts) (hex : s.exit = .running)
    (hs : s.writerStep ok = some s') : ∃ r', Inv s' r' := by
  have hgone : ¬s.WriterGone := by simp [WriterGone, hex]
  have hboth := (hr.closes.of_writer hgone).1
  have hsends := hr.sends
  simp only [Wrote, hex] at hsends
  obtain ⟨hopen, -, hflag⟩ := hsends
  simp only [StreamCall.writerStep, hex] at hs
  split at hs
  · cases hs
  · rename_i k hk
    have hring := ringClosed_writerStep hk
    cases StreamClient.turn_of_writerStep hk with
    | takes _ hwait =>
      simp only [hwait, reduceCtorEq, if_false, writerOps, List.append_nil] at hs
      cases hs
      exact h.of_writer hsp hr hgone h.leads hring (by simp) hr.saw (by simp [Wrote, hopen, hflag])
    | leaves _ hwait =>
      simp only [hwait, if_true, writerOps, List.append_nil] at hs
      cases hs
      exact h.of_writer hsp hr hgone h.leads hring (by simp) hr.saw ⟨hopen, hflag⟩
    | wrote m hwriting =>
      simp only [hwriting, reduceCtorEq, if_false, writerOps] at hs
      cases hs
      have hsaw := hr.saw.record (.write (.msg m) true)
      refine h.of_writer hsp hr hgone (x := .open) (h.leads.snoc (if_pos ⟨hboth, hopen⟩)) hring (by simp)
        ⟨?_, hsaw.received.trans (List.append_nil _), hsaw.statuses.trans (List.append_nil _)⟩ (by simp [Wrote, hflag])
      rw [List.map_append]
      exact hsaw.sent
    | failed m hwriting =>
      simp only [hwriting, reduceCtorEq, if_true, if_false, writerOps] at hs
      cases hs
      exact h.of_writer hsp hr hgone (x := .broken) (h.leads.snoc (if_pos ⟨hboth, hopen⟩)) hring (by simp)
        (SameSaw.of_silent rfl rfl rfl rfl _ _ _ hr.saw) (by simp [Wrote])

/-- **What a step of the writer keeps**: it writes while the sending side is open, and closes it once. -/
theorem Inv.writerStep (h : Inv s r) (hs : s.writerStep ok = some s') : ∃ r', Inv s' r' := by
  rcases h.quiet_or_running with ⟨hq, -⟩ | ⟨hsp, ms, sts, hr⟩
  · simp only [StreamCall.writerStep, hq.exit] at hs
    cases hs
  · have hsends := hr.sends
    cases hex : s.exit with
    | unspawned | done =>
      simp only [StreamCall.writerStep, hex] at hs
      cases hs
    | running => exact h.writerLoop hsp hr hex hs
    | claim =>
      have hgone : ¬s.WriterGone := by simp [WriterGone, hex]
      simp only [Wrote, hex] at hsends
      have hfree : (s.writesDone || !s.stream) = false := by
        rw [hsends.2, h.stream.2 (hr.closes.of_writer hgone).1]
        rfl
      simp only [StreamCall.writerStep, hex, hfree, Bool.false_eq_true, if_false] at hs
      cases hs
      exact h.of_writer hsp hr hgone h.leads rfl (by simp) hr.saw hsends.1
    | sending =>
      have hgone : ¬s.WriterGone := by simp [WriterGone, hex]
      simp only [Wrote, hex] at hsends
      simp only [StreamCall.writerStep, hex] at hs
      cases hs
      exact h.of_writer hsp hr hgone (x := .halfClosed) (h.leads.snoc (if_pos ⟨(hr.closes.of_writer hgone).1, hsends⟩)) rfl
        (by simp) (SameSaw.of_silent rfl rfl rfl rfl _ _ _ hr.saw) (by simp [Wrote])

/-- One more message and its callback. -/
theorem heard_snoc (s : StreamCall c) (ms : List FromService) {m : FromService} {cb : Option StreamCallback}
    (hm : dispatch s.callbacks s.agreed m = some cb) : s.heard (ms ++ [m]) = s.heard ms ++ cb.toList := by
  rw [heard, heard, List.filterMap_append, List.filterMap_cons, hm]
  cases cb <;> rfl

/-- A step of the reader, with the rest of the stream as it was. -/
theorem Inv.of_reader {ms' : List FromService} {sts' : List GrpcStatus} (h : Inv s r) (hsp : s.Spawned)
    (hr : s.Running r ms sts) (hnd : s.reader ≠ .done) {re : StreamReader} {calls : List StreamCallback}
    {final : GrpcStatus} (hl : Leads ops { r with reads := readsOf re }) (hre : re ≠ .unspawned)
    (hsaw : Saw { s with ops } (.start s.config.start :: s.client.written.map .msg) (.ready s.agreed :: ms') sts')
    (hheard : Heard { s with reader := re, calls, finalStatus := final } ms' sts') :
    ∃ r', Inv { s with reader := re, calls, finalStatus := final, ops } r' :=
  ⟨_, .of_running hl h.stream h.context hsp
    ⟨hsaw.of_ops rfl, hheard, rfl, hr.sends, (hr.closes.of_reader hnd).2 _ rfl rfl rfl rfl, hre⟩⟩

/-- **What a step of the reader keeps**: it reads until a read ends, asks for the status once, and calls what it reads. -/
theorem Inv.readerStep (h : Inv s r) (hs : s.readerStep a = some s') : ∃ r', Inv s' r' := by
  rcases h.quiet_or_running with ⟨hq, -⟩ | ⟨hsp, ms, sts, hr⟩
  · simp only [StreamCall.readerStep, hq.reader] at hs
    cases hs
  have hnd : s.reader ≠ .done := fun hx => by simp [StreamCall.readerStep, hx] at hs
  have hboth := (hr.closes.of_reader hnd).1
  have hheard := hr.heard
  have hreads := hr.reads
  have hsame : Leads s.ops { r with reads := readsOf s.reader } := by
    rw [← hreads]
    exact h.leads
  cases hre : s.reader <;> simp only [Heard, hre] at hheard <;> rw [hre] at hreads hsame <;>
    simp only [StreamCall.readerStep, hre] at hs
  case unspawned => exact absurd hre hr.spawned
  case done => exact absurd hre hnd
  case reading =>
    split at hs
    · cases hs
      exact h.of_reader hsp hr hnd (h.leads.snoc (if_pos ⟨hboth, hreads⟩)) (by simp)
        (SameSaw.of_silent rfl rfl rfl rfl _ _ _ hr.saw) hheard
    · rename_i m hm
      split at hs <;> cases hs
      rename_i cb hcb
      have hsaw := hr.saw.record (.read (some m))
      exact h.of_reader hsp hr hnd (h.leads.snoc (if_pos ⟨hboth, hreads⟩)) (by simp)
        ⟨hsaw.sent.trans (List.append_nil _), hsaw.received, hsaw.statuses.trans (List.append_nil _)⟩
        ⟨hheard.1, (congrArg (· ++ cb.toList) hheard.2).trans (heard_snoc s ms hcb).symm⟩
  case finishing =>
    cases hs
    have hsaw := hr.saw.record (.finish a.status)
    rw [hheard.1] at hsaw
    exact h.of_reader hsp hr hnd (h.leads.snoc (if_pos ⟨hboth, .inl hreads⟩)) (by simp)
      ⟨hsaw.sent.trans (List.append_nil _), hsaw.received.trans (List.append_nil _), hsaw.statuses⟩ ⟨rfl, hheard.2⟩
  case dispatching cb =>
    cases hs
    exact h.of_reader hsp hr hnd hsame (by simp) hr.saw hheard
  case storing st =>
    cases hs
    exact h.of_reader hsp hr hnd hsame (by simp) hr.saw ⟨hheard.1, hheard.2, rfl⟩
  case notifying st =>
    cases hs
    obtain ⟨hsts, hcalls, rfl⟩ := hheard
    exact h.of_reader hsp hr hnd hsame (by simp) hr.saw ⟨hsts, congrArg (· ++ _) hcalls⟩

/-! ## `Close` -/

theorem Inv.callClose (h : Inv s r) (j : Nat) (hg : s.opener ≠ .spawnReader ∧ s.opener ≠ .spawnWriter) :
    ∃ r', Inv (s.callClose j) r' := by
  unfold StreamCall.callClose
  split
  · rename_i hflag
    rcases h.quiet_or_running with ⟨-, hq⟩ | ⟨hsp, ms, sts, hr⟩
    · exact absurd (hq hflag) hg.1
    · have hboth : r.objects = .both := by
        have hcl := hr.closes
        unfold Closes at hcl
        split at hcl
        · exact hcl.1
        all_goals simp [hflag] at hcl
      exact ⟨r, .of_running h.leads h.stream h.context (.inr (hsp.resolve_left fun hx => hg.2 hx.1))
        ⟨hr.saw.of_ops rfl, hr.heard, hr.reads, hr.sends, ⟨hboth, rfl⟩, hr.spawned⟩⟩
  · exact ⟨r, h.leads, h.stream, h.context, h.opens.of_same ⟨rfl, rfl, rfl⟩ fun _ _ _ hx => hx.of_ops rfl⟩

/-- A `Close` that goes on came behind `Open`. -/
theorem Inv.running_of_closing {j : Nat} {ph : ClosePhase} (h : Inv s r) (hc : s.closing = some (j, ph)) :
    (s.opener = .opened ∧ (s.exit = .unspawned → s.config.halfCloseWritesAfterStart = true)) ∧
      ∃ ms sts, s.Running r ms sts := by
  rcases h.quiet_or_running with ⟨hq, -⟩ | ⟨hsp, hr⟩
  · rw [hq.closing] at hc
    cases hc
  · refine ⟨hsp.resolve_left fun hx => ?_, hr⟩
    rw [hx.2.1] at hc
    cases hc

/-- **What a step of the `Close` that goes on keeps**: it drops the stream when both threads are gone, and then the
context. -/
theorem Inv.closerStep (h : Inv s r) (hs : s.closerStep = some s') : ∃ r', Inv s' r' := by
  unfold StreamCall.closerStep at hs
  split at hs
  · cases hs
  all_goals
    rename_i j hc
    obtain ⟨hsp, ms, sts, hr⟩ := h.running_of_closing hc
    have hcl := hr.closes
    simp only [Closes, hc] at hcl
  · cases hs
    exact ⟨r, .of_running h.leads h.stream h.context (.inr hsp)
      ⟨hr.saw.of_ops rfl, hr.heard, hr.reads, hr.sends, ⟨hcl.1, hcl.2, rfl⟩, hr.spawned⟩⟩
  · split at hs <;> cases hs
    rename_i hgone
    exact ⟨r, .of_running h.leads h.stream h.context (.inr hsp)
      ⟨hr.saw.of_ops rfl, hr.heard, hr.reads, hr.sends, ⟨hcl.1, hcl.2.1, hgone⟩, hr.spawned⟩⟩
  · split at hs <;> cases hs
    rename_i hgone
    exact ⟨r, .of_running h.leads h.stream h.context (.inr hsp) ⟨hr.saw.of_ops rfl, hr.heard, hr.reads, hr.sends,
      ⟨hcl.1, hcl.2.1, hcl.2.2, hgone.resolve_left hr.spawned⟩, hr.spawned⟩⟩
  · have hstream := h.stream.2 hcl.1
    simp only [hstream, if_true] at hs
    cases hs
    refine ⟨{ r with objects := .context }, .of_running (h.leads.snoc (if_pos hcl.1)) (by simp) ?_ (.inr hsp)
      ⟨SameSaw.of_silent rfl rfl rfl rfl _ _ _ hr.saw, hr.heard, hr.reads, hr.sends, ⟨rfl, hcl.2⟩, hr.spawned⟩⟩
    simpa using h.context.2 (.inl hcl.1)
  · have hcontext := h.context.2 (.inr hcl.1)
    simp only [hcontext, if_true] at hs
    cases hs
    refine ⟨{ r with objects := .dropped }, .of_running (h.leads.snoc (if_pos hcl.1)) ?_ (by simp) (.inr hsp)
      ⟨SameSaw.of_silent rfl rfl rfl rfl _ _ _ hr.saw, hr.heard, hr.reads, hr.sends, ⟨rfl, hcl.2⟩, hr.spawned⟩⟩
    simpa [hcl.1] using h.stream
  · cases hs
    exact ⟨r, .of_running h.leads h.stream h.context (.inr hsp)
      ⟨hr.saw.of_ops rfl, hr.heard, hr.reads, hr.sends, hcl, hr.spawned⟩⟩
  · cases hs

theorem Inv.drainTimeout (h : Inv s r) (hs : s.drainTimeout = some s') : ∃ r', Inv s' r' := by
  unfold StreamCall.drainTimeout at hs
  split at hs
  · rename_i j hc
    obtain ⟨hsp, ms, sts, hr⟩ := h.running_of_closing hc
    have hcl := hr.closes
    simp only [Closes, hc] at hcl
    rw [if_pos (h.context.2 (.inl hcl.1))] at hs
    cases hs
    exact ⟨r, .of_running (h.leads.snoc (if_pos (.inl hcl.1))) h.stream h.context (.inr hsp)
      ⟨SameSaw.of_silent rfl rfl rfl rfl _ _ _ hr.saw, hr.heard, hr.reads, hr.sends, hcl, hr.spawned⟩⟩
  · cases hs

/-! ## Every step -/

theorem sameWriter_sendAudio (k : StreamClient c) (f : AudioFrame) : SameWriter k (k.sendAudio f) := by
  unfold StreamClient.sendAudio
  split <;> exact ⟨rfl, rfl, rfl⟩

theorem sameWriter_sendControl (k : StreamClient c) (m : Bytes) : SameWriter k (k.sendControl m) := by
  unfold StreamClient.sendControl
  split <;> exact ⟨rfl, rfl, rfl⟩

theorem Inv.send (h : Inv s r) (hk : SameWriter s.client k) : ∃ r', Inv { s with client := k } r' :=
  ⟨r, h.leads, h.stream, h.context, h.opens.of_same hk fun _ _ _ hx => hx.of_ops rfl⟩

/-- **What one step keeps**, as long as `Close` is not called while `Open` starts the threads. -/
theorem Inv.step {a : StreamCallAct} (h : Inv s r) (hg : s.closesApart a = true) (hs : s.step a = some s') :
    ∃ r', Inv s' r' := by
  cases a with
  | sendAudio f =>
    cases hs
    exact h.send (sameWriter_sendAudio _ f)
  | sendControl m =>
    cases hs
    exact h.send (sameWriter_sendControl _ m)
  | callOpen made => exact h.callOpen hs
  | handshake a => exact h.handshakeStep hs
  | openTimeout => exact h.openTimeout hs
  | writer ok => exact h.writerStep hs
  | reader a => exact h.readerStep hs
  | callClose j =>
    cases hs
    exact h.callClose j (of_decide_eq_true hg)
  | closer => exact h.closerStep hs
  | drainTimeout => exact h.drainTimeout hs

theorem inv_of_run (h : 0 < c) {config : StreamConfig} {callbacks : StreamCallbacks} {acts : List StreamCallAct}
    (hg : Run.along step closesApart acts (make h config callbacks) = true)
    (hrun : Run.exec step acts (make h config callbacks) = some s) : ∃ r, Inv s r :=
  Run.exec_inv_along (I := fun s : StreamCall c => ∃ r, Inv s r)
    (fun _ _ _ hi hg hs => hi.elim fun _ hi => hi.step hg hs) acts _ s ⟨_, inv_make h config callbacks⟩ hg hrun

/-- **A media stream keeps the rules of gRPC**: whatever the peer answers, whenever the deadline of the handshake and the
drain timeout pass and however the threads and the calls of `Close` interleave, nothing is written after the half-close
or after a failed write, the half-close and `Finish` come at most once, no operation is on a dropped stream, and the
context goes after the stream. -/
theorem ops_legal (h : 0 < c) (config : StreamConfig) (callbacks : StreamCallbacks) (acts : List StreamCallAct)
    (s : StreamCall c) (hg : Run.along step closesApart acts (make h config callbacks) = true)
    (hrun : Run.exec step acts (make h config callbacks) = some s) : RpcStream.Legal s.ops := by
  obtain ⟨r, hi⟩ := inv_of_run h hg hrun
  exact ⟨r, hi.leads⟩

def sttConfig : StreamConfig :=
  ⟨⟨[1], [2], .sttTranscribe, 8000, 1, .pcmS16le, [], [], .callerMic, []⟩, false⟩

/-- With every callback set. -/
abbrev sttStream : StreamCall 2 := make (by decide) sttConfig ⟨true, true, true, true, true⟩

def answer (m : FromService) : Answer := ⟨true, some m, statusOk⟩

/-- The peer has hung up. -/
def gone : Answer := ⟨false, none, ⟨.cancelled, []⟩⟩

/-- `Open` of a stream whose peer is ready, up to its threads. -/
def readyRun : List StreamCallAct :=
  [.callOpen true, .handshake (answer .notSet), .handshake (answer (.ready ⟨8000, 1, [3]⟩)), .handshake gone, .handshake gone]

/-- A frame up, a transcript down, and a `Close` that has to cancel the peer. -/
def drainRun : List StreamCallAct :=
  readyRun ++ [.handshake gone, .handshake gone, .sendAudio ⟨[1], 8000, 1, 0, 0, 0, [1]⟩, .writer true, .writer true,
    .reader (answer (.transcript [9])), .callClose 1, .callClose 2, .closer, .reader gone, .writer true, .writer true,
    .writer true, .closer, .drainTimeout] ++ List.replicate 4 (.reader gone) ++ List.replicate 4 .closer

theorem ops_legal_drainRun :
    (Run.exec step drainRun sttStream).map (fun s => (s.ops.length, s.closed, s.calls)) =
      some (11, [(2, statusOk), (1, gone.status)], [.transcript [9], .done gone.status]) ∧
    ∀ s, Run.exec step drainRun sttStream = some s → RpcStream.Legal s.ops :=
  ⟨by decide +kernel, fun s => ops_legal _ _ _ drainRun s (by decide +kernel)⟩

/-- A `Close` between the flag and the threads leaves the reader a stream that is gone. -/
example : (Run.exec step (readyRun ++ .callClose 1 :: List.replicate 5 .closer ++ [.handshake gone, .reader gone])
    sttStream).map (fun s => decide (RpcStream.Legal s.ops)) = some false := by
  decide +kernel

/-- The callbacks of a stream that received `ms` behind its `StreamReady`, and asked for the statuses. -/
def called (cb : StreamCallbacks) (ready : StreamReady) (ms : List FromService) (sts : List GrpcStatus) :
    List StreamCallback :=
  ms.filterMap (fun m => (dispatch cb ready m).join) ++ if cb.onDone then sts.map .done else []

/-- What was called is the beginning of the callbacks of what was received, with the status of `Finish` at the end, and
all of them when the reader is done. -/
def CallsInOrder (s : StreamCall c) : Prop :=
  s.calls = [] ∧ s.reader ≠ .done ∨
  ∃ ready ms, received s.ops = .ready ready :: ms ∧ s.calls <+: called s.callbacks ready ms (statuses s.ops) ∧
    (s.reader = .done → s.calls = called s.callbacks ready ms [s.finalStatus] ∧ statuses s.ops = [s.finalStatus])

/-- **Callbacks come in the order of the messages, and `on_done` once and last**, at every moment of a run. -/
theorem callbacks_in_order (h : 0 < c) (config : StreamConfig) (callbacks : StreamCallbacks) (acts : List StreamCallAct)
    (s : StreamCall c) (hg : Run.along step closesApart acts (make h config callbacks) = true)
    (hrun : Run.exec step acts (make h config callbacks) = some s) : s.CallsInOrder := by
  obtain ⟨r, hi⟩ := inv_of_run h hg hrun
  rcases hi.quiet_or_running with ⟨hq, -⟩ | ⟨-, ms, sts, hr⟩
  · exact .inl ⟨hq.calls, by rw [hq.reader]; exact fun hx => by cases hx⟩
  · refine .inr ⟨s.agreed, ms, hr.saw.received, ?_, ?_⟩
    · rw [hr.saw.statuses]
      have hheard := hr.heard
      have hpre : s.heard ms <+: called s.callbacks s.agreed ms sts := List.prefix_append _ _
      unfold Heard at hheard
      split at hheard
      iterate 3 · exact hheard.2 ▸ hpre
      · exact (List.prefix_append _ _).trans (hheard.2 ▸ hpre)
      · exact hheard.2 ▸ hpre
      · exact hheard.2.1 ▸ hpre
      · rw [hheard.2, hheard.1]
        exact List.prefix_rfl
    · intro hd
      have hheard := hr.heard
      simp only [Heard, hd] at hheard
      exact ⟨hheard.2, hr.saw.statuses.trans hheard.1⟩

theorem callbacks_in_order_drainRun :
    (Run.exec step drainRun sttStream).map (fun s => (s.reader, s.calls.length)) = some (.done, 2) ∧
    ∀ s, Run.exec step drainRun sttStream = some s → s.CallsInOrder :=
  ⟨by decide +kernel, fun s => callbacks_in_order _ _ _ drainRun s (by decide +kernel)⟩

end StreamCall
end Media
end Osw
