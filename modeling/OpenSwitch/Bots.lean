import OpenSwitch.MediaStreams
/-!
# Bots — StartBot requests, the bugs of a bot, and the active bots

A bot has one upstream stream and, on each of its target channels, a read bug, a write bug or both, as its purpose says
(`BotSession`).  `ActiveBots` keeps the running bots by id and, for each channel, the ids of the bots that target it; the
two maps are inverse to each other, however often a channel stands in a list of targets.
-/
namespace Osw
namespace Control

open Media (BugConfig Purpose)

/-- `StartBotRequest::Purpose`. -/
inductive BotPurpose
  | unspecified
  | ttsBroadcast
  | sttListen
  | voicebotDuplex
  | whisper
  deriving DecidableEq, Repr

namespace BotPurpose

/-- `PurposeName`, as it is written on the channel. -/
def name : BotPurpose → Bytes
  | ttsBroadcast   => str "tts_broadcast"
  | sttListen      => str "stt_listen"
  | voicebotDuplex => str "voicebot_duplex"
  | whisper        => str "whisper"
  | unspecified    => str "unspecified"

def supportsRead (p : BotPurpose) : Bool := p == sttListen || p == voicebotDuplex || p == whisper

def supportsWrite (p : BotPurpose) : Bool := p == ttsBroadcast || p == voicebotDuplex || p == whisper

end BotPurpose

/-- The fields of `StartBotRequest` that decide what becomes of the call. -/
structure StartBotRequest where
  targets          : List Bytes
  writeTargets     : List Bytes
  upstreamEndpoint : Bytes
  purpose          : BotPurpose
  sampleRateHz     : Nat
  tenantId         : Bytes
  deriving DecidableEq, Repr

/-- The module's limits, as the configuration check admits them. -/
structure BotLimits where
  maxTargets        : Nat
  maxBotsPerChannel : Nat
  targets_pos       : 0 < maxTargets
  perChannel_pos    : 0 < maxBotsPerChannel

namespace StartBotRequest

def rate (req : StartBotRequest) : Nat := if req.sampleRateHz ≠ 0 then req.sampleRateHz else defaultSampleRateHz

/-- The first target that is empty or was seen before. -/
def checkTargets : List Bytes → List Bytes → Option Status
  | _, [] => none
  | seen, u :: us =>
    if u = [] then some ⟨.invalidArgument, str "target channel UUID is empty"⟩
    else if u ∈ seen then some ⟨.invalidArgument, str "duplicate target channel UUID"⟩
    else checkTargets (u :: seen) us

def checkWriteTargets (req : StartBotRequest) : Option Status :=
  if req.writeTargets ≠ [] ∧ req.purpose ≠ .whisper then
    some ⟨.invalidArgument, str "write_target_channel_uuids is only valid for WHISPER"⟩
  else if req.purpose = .whisper then
    if req.writeTargets = [] then some ⟨.invalidArgument, str "WHISPER requires write_target_channel_uuids"⟩
    else if req.writeTargets.all (fun u => req.targets.contains u) then none
    else some ⟨.invalidArgument, str "write target not in target_channel_uuids"⟩
  else none

/-- `ValidateStartBot`. -/
def validate (lim : BotLimits) (req : StartBotRequest) : Option Status :=
  if req.targets = [] then some ⟨.invalidArgument, str "target_channel_uuids required"⟩
  else if lim.maxTargets < req.targets.length then
    some ⟨.resourceExhausted, str "too many target_channel_uuids"⟩
  else if req.upstreamEndpoint = [] then some ⟨.invalidArgument, str "upstream_endpoint required"⟩
  else
    (checkTargets [] req.targets).or (req.checkWriteTargets.or
      (if req.purpose = .unspecified then some ⟨.invalidArgument, str "purpose required"⟩
       else if req.rate ≠ 8000 ∧ req.rate ≠ 16000 then
        some ⟨.invalidArgument, str "sample_rate_hz must be 8000 or 16000"⟩
       else none))

theorem checkTargets_eq_none : ∀ {seen us : List Bytes}, checkTargets seen us = none → us.Nodup ∧ ∀ u ∈ us, u ∉ seen
  | _, [], _ => ⟨List.nodup_nil, by simp⟩
  | seen, u :: us, h => by
    rw [checkTargets] at h
    split at h
    · cases h
    · split at h
      · cases h
      · rename_i hseen
        obtain ⟨hnd, hnot⟩ := checkTargets_eq_none h
        refine ⟨List.nodup_cons.2 ⟨fun hmem => hnot u hmem (by simp), hnd⟩, fun v hv => ?_⟩
        rcases List.mem_cons.1 hv with rfl | hv
        · exact hseen
        · exact fun hmem => hnot v hv (List.mem_cons_of_mem _ hmem)

/-- What an accepted request says of its targets.  A write target may stand in the list twice. -/
theorem targets_of_validate {lim : BotLimits} {req : StartBotRequest} (h : req.validate lim = none) :
    req.targets.Nodup ∧ (req.purpose ≠ .whisper → req.writeTargets = []) ∧
    (req.purpose = .whisper → ∀ u ∈ req.writeTargets, u ∈ req.targets) := by
  unfold validate at h
  split at h
  · cases h
  split at h
  · cases h
  split at h
  · cases h
  obtain ⟨htargets, hrest⟩ := Option.or_eq_none_iff.1 h
  obtain ⟨hwrite, -⟩ := Option.or_eq_none_iff.1 hrest
  refine ⟨(checkTargets_eq_none htargets).1, fun hp => ?_, fun hp u hu => ?_⟩
  · by_contra hne
    rw [checkWriteTargets, if_pos ⟨hne, hp⟩] at hwrite
    cases hwrite
  · rw [checkWriteTargets, if_neg (fun hc => hc.2 hp), if_pos hp] at hwrite
    split at hwrite
    · cases hwrite
    · split at hwrite
      · rename_i hall
        simpa using List.all_eq_true.1 hall u hu
      · cases hwrite

/-- `ShouldWriteTarget` and `ShouldAttachWrite`. -/
def shouldWriteTarget (req : StartBotRequest) (u : Bytes) : Bool :=
  req.purpose.supportsWrite && (req.purpose != .whisper || req.writeTargets.contains u)

def atCapacity : Status := ⟨.failedPrecondition, str "channel already has maximum active bots"⟩

def botIdCollision : Status := ⟨.internal, str "bot_id collision"⟩

def targetNotFound (u : Bytes) : Status := ⟨.notFound, str "channel not found: " ++ u⟩

/-- What the handler checks of a target's session. -/
def checkSession (req : StartBotRequest) (u : Bytes) : Option SessionView → Option Status
  | none => some (targetNotFound u)
  | some v =>
    (if req.purpose.supportsRead then validateRatePair (str "StartBot read") v.readRate req.rate else none).or
      (if req.shouldWriteTarget u then validateRatePair (str "StartBot write") req.rate v.writeRate else none)

end StartBotRequest

/-! ## The bugs of a bot -/

inductive BugSide
  | read
  | write
  deriving DecidableEq, Repr

def botReadConfig (req : StartBotRequest) : BugConfig :=
  ⟨if req.purpose = .sttListen then .sttTranscribe else .voicebotDuplexRead, Media.smbfReadStream, req.rate, req.tenantId⟩

def botWriteConfig (req : StartBotRequest) : BugConfig :=
  ⟨if req.purpose = .voicebotDuplex then .voicebotDuplexWrite else .ttsPlayback, Media.smbfWriteReplace, req.rate,
    req.tenantId⟩

/-- The bugs `BotSession::Attach` puts on a target, in order. -/
def botBugs (req : StartBotRequest) (u : Bytes) : List (BugSide × BugConfig) :=
  (if req.purpose.supportsRead then [(.read, botReadConfig req)] else []) ++
    (if req.shouldWriteTarget u then [(.write, botWriteConfig req)] else [])

/-- `AttachFailureStatus`. -/
def attachFailureStatus (st : Status) : Status :=
  if st.code = .alreadyExists then { st with code := .failedPrecondition } else st

/-- `SetBugCallback` found no record. -/
def failedToWire : BugSide → Status
  | .read  => ⟨.internal, str "failed to wire read callback"⟩
  | .write => ⟨.internal, str "failed to wire write callback"⟩

/-! ## Active bots -/

/-- A running bot.  What stands for its session is a parameter. -/
structure ActiveBot (σ : Type) where
  botId     : Bytes
  targets   : List Bytes
  streamIds : List Bytes
  session   : σ

/-- `by_id_` and `by_channel_`. -/
structure ActiveBots (σ : Type) where
  byId      : Bytes → Option (ActiveBot σ)
  byChannel : Bytes → Option (List Bytes)
  keyed     : ∀ k b, byId k = some b → b.botId = k
  listed    : ∀ k b, byId k = some b → ∀ u ∈ b.targets, k ∈ (byChannel u).getD []
  indexed   : ∀ u l, byChannel u = some l → l ≠ [] ∧ ∀ k ∈ l, ∃ b, byId k = some b ∧ u ∈ b.targets

inductive InsertResult
  | inserted
  | duplicateBotId
  | channelCapacityExceeded
  deriving DecidableEq, Repr

namespace ActiveBots

variable {σ : Type} {k : Bytes} {b : ActiveBot σ} {a a' : ActiveBots σ}

def empty : ActiveBots σ := ⟨fun _ => none, fun _ => none, nofun, nofun, nofun⟩

/-- The ids of the bots that target a channel. -/
def channelBots (a : ActiveBots σ) (u : Bytes) : List Bytes := (a.byChannel u).getD []

/-- `ChannelAtCapacity`. -/
def channelAtCapacity (a : ActiveBots σ) (u : Bytes) (max : Nat) : Bool :=
  match a.byChannel u with
  | some l => max ≤ l.length
  | none   => false

/-- A bot is put on the list of each of its targets. -/
def pushEach (k : Bytes) (f : Bytes → Option (List Bytes)) (us : List Bytes) : Bytes → Option (List Bytes) :=
  us.foldl (fun f u => Function.update f u (some ((f u).getD [] ++ [k]))) f

/-- A bot is taken off the list of each of its targets (`EraseValue`); an empty list goes. -/
def dropEach (k : Bytes) (f : Bytes → Option (List Bytes)) (us : List Bytes) : Bytes → Option (List Bytes) :=
  us.foldl (fun f u =>
    match f u with
    | none   => f
    | some l =>
      Function.update f u
        (if l.filter (fun x => x != k) = [] then none else some (l.filter (fun x => x != k)))) f

theorem mem_pushEach : ∀ {us : List Bytes} {f : Bytes → Option (List Bytes)} {u j : Bytes},
    j ∈ (pushEach k f us u).getD [] ↔ j ∈ (f u).getD [] ∨ (j = k ∧ u ∈ us)
  | [], f, u, j => by simp [pushEach]
  | v :: us, f, u, j => by
    have ih := @mem_pushEach us (Function.update f v (some ((f v).getD [] ++ [k]))) u j
    rw [show pushEach k f (v :: us) = pushEach k (Function.update f v (some ((f v).getD [] ++ [k]))) us from rfl, ih]
    by_cases huv : u = v
    · subst huv
      simp only [Function.update_self, Option.getD_some, List.mem_append, List.mem_cons, List.not_mem_nil, or_false,
        true_or, and_true]
      constructor
      · rintro ((h | h) | ⟨h, -⟩)
        · exact .inl h
        · exact .inr h
        · exact .inr h
      · rintro (h | h)
        · exact .inl (.inl h)
        · exact .inl (.inr h)
    · simp only [Function.update_of_ne huv, List.mem_cons, huv, false_or]

theorem pushEach_ne_nil : ∀ {us : List Bytes} {f : Bytes → Option (List Bytes)},
    (∀ u l, f u = some l → l ≠ []) → ∀ u l, pushEach k f us u = some l → l ≠ []
  | [], _, hf => hf
  | v :: us, f, hf => by
    refine @pushEach_ne_nil us (Function.update f v (some ((f v).getD [] ++ [k]))) ?_
    intro u l hl
    by_cases huv : u = v
    · subst huv
      rw [Function.update_self] at hl
      cases hl
      simp
    · rw [Function.update_of_ne huv] at hl
      exact hf u l hl

theorem dropEach_cons (k v : Bytes) (us : List Bytes) (f : Bytes → Option (List Bytes)) :
    dropEach k f (v :: us) = dropEach k (match f v with
      | none   => f
      | some l => Function.update f v
          (if l.filter (fun x => x != k) = [] then none else some (l.filter (fun x => x != k)))) us := rfl

/-- The lists of the targets are without the bot, and the others as they were. -/
theorem dropEach_getD : ∀ {us : List Bytes} {f : Bytes → Option (List Bytes)} (u : Bytes),
    (dropEach k f us u).getD [] = if u ∈ us then ((f u).getD []).filter (fun x => x != k) else (f u).getD []
  | [], _, _ => rfl
  | v :: us, f, u => by
    have hget : ∀ l : List Bytes, (if l.filter (fun x => x != k) = [] then none
        else some (l.filter (fun x => x != k))).getD [] = l.filter (fun x => x != k) := by
      intro l
      split
      · rename_i hnil
        rw [hnil]
        rfl
      · rfl
    rw [dropEach_cons, dropEach_getD]
    cases hv : f v with
    | none =>
      by_cases huv : u = v
      · subst huv
        simp [hv]
      · simp [huv]
    | some l =>
      by_cases huv : u = v
      · subst huv
        simp only [Function.update_self, hget, hv, Option.getD_some, List.mem_cons, true_or, if_true]
        split
        · rw [List.filter_filter]
          simp
        · rfl
      · simp [huv]

theorem mem_dropEach {us : List Bytes} {f : Bytes → Option (List Bytes)} {u j : Bytes} :
    j ∈ (dropEach k f us u).getD [] ↔ j ∈ (f u).getD [] ∧ (u ∈ us → j ≠ k) := by
  rw [dropEach_getD]
  split
  · rename_i hu
    simp [List.mem_filter, hu]
  · rename_i hu
    simp [hu]

theorem dropEach_ne_nil : ∀ {us : List Bytes} {f : Bytes → Option (List Bytes)},
    (∀ u l, f u = some l → l ≠ []) → ∀ u l, dropEach k f us u = some l → l ≠ []
  | [], _, hf => hf
  | v :: us, f, hf => by
    rw [dropEach_cons]
    cases hv : f v with
    | none => exact dropEach_ne_nil hf
    | some l =>
      refine dropEach_ne_nil ?_
      intro u l' hl'
      simp only at hl'
      by_cases huv : u = v
      · subst huv
        rw [Function.update_self] at hl'
        split at hl'
        · cases hl'
        · rename_i hne
          cases hl'
          exact hne
      · rw [Function.update_of_ne huv] at hl'
        exact hf u l' hl'

/-- The maps with one more bot. -/
def emplace (a : ActiveBots σ) (b : ActiveBot σ) (hnew : a.byId b.botId = none) : ActiveBots σ where
  byId := Function.update a.byId b.botId (some b)
  byChannel := pushEach b.botId a.byChannel b.targets
  keyed := by
    intro k b' hk
    by_cases he : k = b.botId
    · subst he
      rw [Function.update_self] at hk
      cases hk
      rfl
    · rw [Function.update_of_ne he] at hk
      exact a.keyed k b' hk
  listed := by
    intro k b' hk u hu
    by_cases he : k = b.botId
    · subst he
      rw [Function.update_self] at hk
      cases hk
      exact mem_pushEach.2 (.inr ⟨rfl, hu⟩)
    · rw [Function.update_of_ne he] at hk
      exact mem_pushEach.2 (.inl (a.listed k b' hk u hu))
  indexed := by
    intro u l hl
    refine ⟨pushEach_ne_nil (fun v l' hl' => (a.indexed v l' hl').1) u l hl, fun k hk => ?_⟩
    have hmem : k ∈ (pushEach b.botId a.byChannel b.targets u).getD [] := by rw [hl]; exact hk
    rcases mem_pushEach.1 hmem with hold | ⟨rfl, hu⟩
    · cases hc : a.byChannel u with
      | none => simp [hc] at hold
      | some l' =>
        rw [hc] at hold
        obtain ⟨b', hb', hu⟩ := (a.indexed u l' hc).2 k hold
        have he : k ≠ b.botId := fun he => by
          rw [he, hnew] at hb'
          cases hb'
        exact ⟨b', by rw [Function.update_of_ne he]; exact hb', hu⟩
    · exact ⟨b, Function.update_self .., hu⟩

/-- `Insert`. -/
def insert (a : ActiveBots σ) (b : ActiveBot σ) (max : Nat) : ActiveBots σ × InsertResult :=
  if b.botId = [] then (a, .duplicateBotId)
  else if h : a.byId b.botId = none then
    if b.targets.any (fun u => max ≤ (a.channelBots u).length) then (a, .channelCapacityExceeded)
    else (a.emplace b h, .inserted)
  else (a, .duplicateBotId)

/-- What an `Insert` that succeeds found, and what it leaves. -/
theorem insert_inserted {max : Nat} (h : a.insert b max = (a', .inserted)) :
    b.botId ≠ [] ∧ a.byId b.botId = none ∧ (∀ u ∈ b.targets, (a.channelBots u).length < max) ∧
      a'.byId = Function.update a.byId b.botId (some b) ∧ a'.byChannel = pushEach b.botId a.byChannel b.targets := by
  unfold insert at h
  split_ifs at h with hid hnew hcap
  · cases h
  · cases h
  · obtain ⟨rfl, -⟩ := Prod.mk.inj h
    refine ⟨hid, hnew, fun u hu => Nat.lt_of_not_le (fun hle => hcap ?_), rfl, rfl⟩
    exact List.any_eq_true.2 ⟨u, hu, by simpa using hle⟩
  · cases h

theorem insert_refused {max : Nat} {r : InsertResult} (h : a.insert b max = (a', r)) (hr : r ≠ .inserted) :
    a' = a ∧ (b.botId = [] ∨ a.byId b.botId ≠ none ∨ ∃ u ∈ b.targets, max ≤ (a.channelBots u).length) := by
  unfold insert at h
  split_ifs at h with hid hnew hcap
  · cases h
    exact ⟨rfl, .inl hid⟩
  · cases h
    obtain ⟨u, hu, hle⟩ := List.any_eq_true.1 hcap
    exact ⟨rfl, .inr (.inr ⟨u, hu, by simpa using hle⟩)⟩
  · cases h
    exact absurd rfl hr
  · cases h
    exact ⟨rfl, .inr (.inl hnew)⟩

/-- The first half of `Stop`: the bot leaves both maps. -/
def take (a : ActiveBots σ) (k : Bytes) : Option (ActiveBot σ) × ActiveBots σ :=
  match h : a.byId k with
  | none   => (none, a)
  | some b =>
    (some b,
      { byId := Function.update a.byId k none
        byChannel := dropEach b.botId a.byChannel b.targets
        keyed := by
          intro j b' hj
          by_cases he : j = k
          · subst he
            rw [Function.update_self] at hj
            cases hj
          · rw [Function.update_of_ne he] at hj
            exact a.keyed j b' hj
        listed := by
          intro j b' hj u hu
          by_cases he : j = k
          · subst he
            rw [Function.update_self] at hj
            cases hj
          · rw [Function.update_of_ne he] at hj
            exact mem_dropEach.2 ⟨a.listed j b' hj u hu, fun _ hjk => he (hjk.trans (a.keyed k b h))⟩
        indexed := by
          intro u l hl
          refine ⟨dropEach_ne_nil (fun v l' hl' => (a.indexed v l' hl').1) u l hl, fun j hj => ?_⟩
          have hmem : j ∈ (dropEach b.botId a.byChannel b.targets u).getD [] := by rw [hl]; exact hj
          obtain ⟨hold, hne⟩ := mem_dropEach.1 hmem
          cases hc : a.byChannel u with
          | none => simp [hc] at hold
          | some l' =>
            rw [hc] at hold
            obtain ⟨b', hb', hu⟩ := (a.indexed u l' hc).2 j hold
            have he : j ≠ k := by
              rintro rfl
              rw [h] at hb'
              cases hb'
              exact hne hu (a.keyed j b h).symm
            exact ⟨b', by rw [Function.update_of_ne he]; exact hb', hu⟩ })

theorem take_of_none (h : a.byId k = none) : a.take k = (none, a) := by
  unfold take
  split
  · rfl
  · rename_i b hb
    rw [h] at hb
    cases hb

theorem take_fst (a : ActiveBots σ) (k : Bytes) : (a.take k).1 = a.byId k := by
  unfold take
  split
  · rename_i h
    exact h.symm
  · rename_i b hb
    exact hb.symm

theorem take_byId (a : ActiveBots σ) (k : Bytes) : (a.take k).2.byId = Function.update a.byId k none := by
  cases h : a.byId k with
  | none => rw [take_of_none h, ← h, Function.update_eq_self]
  | some b =>
    unfold take
    split
    · rename_i hn
      rw [h] at hn
      cases hn
    · rfl

theorem take_byChannel (hb : a.byId k = some b) : (a.take k).2.byChannel = dropEach b.botId a.byChannel b.targets := by
  unfold take
  split
  · rename_i hn
    rw [hb] at hn
    cases hn
  · rename_i b' hb'
    rw [hb] at hb'
    cases hb'
    rfl

theorem of_take {j : Bytes} {ob : Option (ActiveBot σ)} (h : a.take k = (ob, a')) (hj : a'.byId j = some b) :
    j ≠ k ∧ a.byId j = some b := by
  have hbyId := a.take_byId k
  rw [h] at hbyId
  rw [hbyId] at hj
  by_cases hjk : j = k
  · subst hjk
    rw [Function.update_self] at hj
    cases hj
  · rw [Function.update_of_ne hjk] at hj
    exact ⟨hjk, hj⟩

/-- A channel has on its list exactly the bots that target it. -/
theorem mem_channelBots (a : ActiveBots σ) {u : Bytes} :
    k ∈ a.channelBots u ↔ ∃ b, a.byId k = some b ∧ u ∈ b.targets := by
  constructor
  · intro h
    cases hc : a.byChannel u with
    | none => simp [channelBots, hc] at h
    | some l =>
      rw [channelBots, hc] at h
      exact (a.indexed u l hc).2 k h
  · rintro ⟨b, hb, hu⟩
    exact a.listed k b hb u hu

end ActiveBots

end Control
end Osw
