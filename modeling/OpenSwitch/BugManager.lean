import OpenSwitch.Basic
import Mathlib.Data.List.Basic
/-!
# BugManager — the registry of media bugs

`MediaBugManager` keeps every bug the module has attached in two maps, by id and by channel.  The two maps are inverse to
each other, list no id twice and no channel without bugs, and every id is below the next one; a registry without these
properties cannot be built.  `Attach` checks a purpose against the purposes on the channel: each one at most once, and
in the order of their stages.
-/
namespace Osw
namespace Media

inductive Purpose
  | unspecified
  | ttsPlayback
  | sttTranscribe
  | voicebotDuplexRead
  | voicebotDuplexWrite
  | amdDetect
  | recordingRelay
  | vadBargeIn
  | test
  deriving DecidableEq, Repr

def stageRank : Purpose → Nat
  | .vadBargeIn => 1
  | .sttTranscribe | .voicebotDuplexRead | .amdDetect => 2
  | .ttsPlayback | .voicebotDuplexWrite => 3
  | .recordingRelay | .test | .unspecified => 4

def Purpose.name : Purpose → Bytes
  | .unspecified         => str "unspecified"
  | .ttsPlayback         => str "tts_playback"
  | .sttTranscribe       => str "stt_transcribe"
  | .voicebotDuplexRead  => str "voicebot_duplex_read"
  | .voicebotDuplexWrite => str "voicebot_duplex_write"
  | .amdDetect           => str "amd_detect"
  | .recordingRelay      => str "recording_relay"
  | .vadBargeIn          => str "vad_barge_in"
  | .test                => str "test"

def smbfReadStream : UInt32 := 1
def smbfWriteReplace : UInt32 := 4
def smbfFirst : UInt32 := 67108864

structure BugConfig where
  purpose      : Purpose
  fsFlags      : UInt32
  targetRateHz : Nat
  tenantId     : Bytes
  deriving DecidableEq, Repr

structure BugRecord where
  id          : Nat
  channelUuid : Bytes
  config      : BugConfig
  deriving DecidableEq, Repr

/-- The registry: `by_id_`, `by_channel_` and `next_id_`. -/
@[ext] structure BugManager where
  byId      : Nat → Option BugRecord
  byChannel : Bytes → Option (List Nat)
  nextId    : Nat
  listed  : ∀ id r, byId id = some r → r.id = id ∧ ∃ ids, byChannel r.channelUuid = some ids ∧ id ∈ ids
  indexed : ∀ c ids, byChannel c = some ids → ids ≠ [] ∧ ids.Nodup ∧ ∀ id ∈ ids, ∃ r, byId id = some r ∧ r.channelUuid = c
  fresh   : ∀ id r, byId id = some r → id < nextId

namespace BugManager

def empty : BugManager :=
  ⟨fun _ => none, fun _ => none, 1, fun _ _ h => (by cases h), fun _ _ h => (by cases h), fun _ _ h => (by cases h)⟩

variable (m : BugManager) {uuid : Bytes} {id : Nat} {m' : BugManager}

/-- The bugs of a channel, in the order they were attached. -/
def channelIds (uuid : Bytes) : List Nat := (m.byChannel uuid).getD []

/-- The purposes on a channel. -/
def purposesOn (uuid : Bytes) : List Purpose :=
  (m.channelIds uuid).filterMap (fun id => (m.byId id).map (·.config.purpose))

theorem mem_channelIds : id ∈ m.channelIds uuid ↔ ∃ r, m.byId id = some r ∧ r.channelUuid = uuid := by
  constructor
  · intro h
    cases hc : m.byChannel uuid with
    | none => simp [channelIds, hc] at h
    | some ids =>
      rw [channelIds, hc] at h
      exact (m.indexed uuid ids hc).2.2 id h
  · rintro ⟨r, hr, rfl⟩
    obtain ⟨-, ids, hc, hid⟩ := m.listed id r hr
    rw [channelIds, hc]
    exact hid

theorem mem_purposesOn {p : Purpose} :
    p ∈ m.purposesOn uuid ↔ ∃ id r, m.byId id = some r ∧ r.channelUuid = uuid ∧ r.config.purpose = p := by
  simp only [purposesOn, List.mem_filterMap, mem_channelIds, Option.map_eq_some_iff]
  constructor
  · rintro ⟨id, ⟨r, hr, hu⟩, r', hr', hp⟩
    rw [hr] at hr'
    cases hr'
    exact ⟨id, r, hr, hu, hp⟩
  · rintro ⟨id, r, hr, hu, hp⟩
    exact ⟨id, ⟨r, hr, hu⟩, r, hr, hp⟩

theorem nodup_channelIds (uuid : Bytes) : (m.channelIds uuid).Nodup := by
  cases hc : m.byChannel uuid with
  | none => simp [channelIds, hc]
  | some ids => rw [channelIds, hc]; exact (m.indexed uuid ids hc).2.1

/-- A channel has an entry exactly when it has bugs. -/
theorem byChannel_eq (uuid : Bytes) :
    m.byChannel uuid = if m.channelIds uuid = [] then none else some (m.channelIds uuid) := by
  cases hc : m.byChannel uuid with
  | none => simp [channelIds, hc]
  | some ids => simp [channelIds, hc, (m.indexed uuid ids hc).1]

theorem byId_nextId : m.byId m.nextId = none := by
  cases h : m.byId m.nextId with
  | none => rfl
  | some r => exact absurd (m.fresh _ r h) (Nat.lt_irrefl _)

/-- Two registries hold the same bugs. -/
def SameBugs (m m' : BugManager) : Prop := m'.byId = m.byId ∧ m'.byChannel = m.byChannel

theorem SameBugs.rfl' : SameBugs m m := ⟨rfl, rfl⟩

theorem SameBugs.trans {m m'' : BugManager} (h : SameBugs m m') (h' : SameBugs m' m'') : SameBugs m m'' :=
  ⟨h'.1.trans h.1, h'.2.trans h.2⟩

theorem sameBugs_of_maps {m : BugManager} (hid : m'.byId = m.byId) (hch : ∀ c, m'.channelIds c = m.channelIds c) :
    SameBugs m m' := by
  refine ⟨hid, funext fun c => ?_⟩
  rw [byChannel_eq, byChannel_eq m, hch]

theorem SameBugs.channelIds {m : BugManager} (h : SameBugs m m') (c : Bytes) : m'.channelIds c = m.channelIds c := by
  rw [BugManager.channelIds, BugManager.channelIds, h.2]

/-- An id that was drawn for a bug that did not come to be. -/
def skipId : BugManager :=
  { m with nextId := m.nextId + 1, fresh := fun id r h => Nat.lt_succ_of_lt (m.fresh id r h) }

/-- The record of a new bug enters both maps. -/
def register (uuid : Bytes) (cfg : BugConfig) : BugManager where
  byId := Function.update m.byId m.nextId (some ⟨m.nextId, uuid, cfg⟩)
  byChannel := Function.update m.byChannel uuid (some (m.channelIds uuid ++ [m.nextId]))
  nextId := m.nextId + 1
  listed := by
    intro id r h
    by_cases hid : id = m.nextId
    · subst hid
      rw [Function.update_self] at h
      cases h
      exact ⟨rfl, _, Function.update_self .., List.mem_append_right _ List.mem_cons_self⟩
    · rw [Function.update_of_ne hid] at h
      obtain ⟨hr, ids, hc, hmem⟩ := m.listed id r h
      refine ⟨hr, ?_⟩
      by_cases hu : r.channelUuid = uuid
      · refine ⟨_, by rw [hu, Function.update_self], List.mem_append_left _ ?_⟩
        exact (m.mem_channelIds).2 ⟨r, h, hu⟩
      · exact ⟨ids, by rw [Function.update_of_ne hu]; exact hc, hmem⟩
  indexed := by
    intro c ids h
    have hkeep : ∀ id r, m.byId id = some r →
        Function.update m.byId m.nextId (some ⟨m.nextId, uuid, cfg⟩) id = some r := by
      intro id r hr
      rw [Function.update_of_ne (Nat.ne_of_lt (m.fresh id r hr))]
      exact hr
    by_cases hc : c = uuid
    · subst hc
      rw [Function.update_self] at h
      cases h
      refine ⟨by simp, ?_, fun id hid => ?_⟩
      · refine List.nodup_append.2 ⟨m.nodup_channelIds c, by simp, ?_⟩
        rintro x hx y hy rfl
        obtain ⟨r, hr, -⟩ := (m.mem_channelIds).1 hx
        rw [List.mem_singleton.1 hy, m.byId_nextId] at hr
        cases hr
      · rcases List.mem_append.1 hid with hid | hid
        · obtain ⟨r, hr, hu⟩ := (m.mem_channelIds).1 hid
          exact ⟨r, hkeep id r hr, hu⟩
        · rw [List.mem_singleton.1 hid]
          exact ⟨_, Function.update_self .., rfl⟩
    · rw [Function.update_of_ne hc] at h
      obtain ⟨hne, hnd, hall⟩ := m.indexed c ids h
      refine ⟨hne, hnd, fun id hid => ?_⟩
      obtain ⟨r, hr, hu⟩ := hall id hid
      exact ⟨r, hkeep id r hr, hu⟩
  fresh := by
    intro id r h
    by_cases hid : id = m.nextId
    · omega
    · rw [Function.update_of_ne hid] at h
      have := m.fresh id r h
      omega

/-- The list of a channel without one id: no entry is left when that was the last. -/
def without (ids : List Nat) (id : Nat) : Option (List Nat) :=
  if ids.filter (fun x => x != id) = [] then none else some (ids.filter (fun x => x != id))

/-- `Detach`: an unknown id changes nothing. -/
def detach (id : Nat) : BugManager :=
  match h : m.byId id with
  | none => m
  | some r =>
    { byId := Function.update m.byId id none
      byChannel := Function.update m.byChannel r.channelUuid (without (m.channelIds r.channelUuid) id)
      nextId := m.nextId
      listed := by
        intro x rx hx
        have hne : x ≠ id := by
          rintro rfl
          rw [Function.update_self] at hx
          cases hx
        rw [Function.update_of_ne hne] at hx
        obtain ⟨hrx, ids, hc, hmem⟩ := m.listed x rx hx
        refine ⟨hrx, ?_⟩
        by_cases hu : rx.channelUuid = r.channelUuid
        · have hin : x ∈ (m.channelIds r.channelUuid).filter (fun y => y != id) :=
            List.mem_filter.2 ⟨(m.mem_channelIds).2 ⟨rx, hx, hu⟩, by simpa using hne⟩
          refine ⟨_, ?_, hin⟩
          rw [hu, Function.update_self, without, if_neg (List.ne_nil_of_mem hin)]
        · exact ⟨ids, by rw [Function.update_of_ne hu]; exact hc, hmem⟩
      indexed := by
        intro c ids hc
        by_cases hu : c = r.channelUuid
        · subst hu
          rw [Function.update_self, without] at hc
          split at hc
          · cases hc
          · rename_i hne
            cases hc
            refine ⟨hne, (m.nodup_channelIds _).filter _, fun x hx => ?_⟩
            obtain ⟨hx, hxi⟩ := List.mem_filter.1 hx
            obtain ⟨rx, hrx, hux⟩ := (m.mem_channelIds).1 hx
            exact ⟨rx, by rw [Function.update_of_ne (by simpa using hxi)]; exact hrx, hux⟩
        · rw [Function.update_of_ne hu] at hc
          obtain ⟨hne, hnd, hall⟩ := m.indexed c ids hc
          refine ⟨hne, hnd, fun x hx => ?_⟩
          obtain ⟨rx, hrx, hux⟩ := hall x hx
          have hxi : x ≠ id := by
            rintro rfl
            rw [h] at hrx
            cases hrx
            exact hu hux.symm
          exact ⟨rx, by rw [Function.update_of_ne hxi]; exact hrx, hux⟩
      fresh := by
        intro x rx hx
        by_cases hxi : x = id
        · subst hxi
          rw [Function.update_self] at hx
          cases hx
        · rw [Function.update_of_ne hxi] at hx
          exact m.fresh x rx hx }

/-- The handles of a stream are dropped one by one. -/
def detachEach (ids : List Nat) : BugManager := ids.foldl detach m

/-! ## Attach -/

def isInject (p : Purpose) : Bool := p == .ttsPlayback || p == .voicebotDuplexWrite

def maxRank (ps : List Purpose) : Nat := (ps.map stageRank).foldl max 0

/-- The validation of `Attach`, against the purposes already on the channel. -/
def checkAttach (cfg : BugConfig) (ps : List Purpose) : Option Status :=
  if cfg.purpose = .recordingRelay ∧ ps.any isInject = false then
    some ⟨.failedPrecondition,
      str "recording relay requires an active INJECT bug (tts_playback or voicebot_duplex_write)"⟩
  else if cfg.purpose ≠ .recordingRelay ∧ ps.contains cfg.purpose = true then
    some ⟨.alreadyExists, str "purpose already attached: " ++ cfg.purpose.name⟩
  else if cfg.purpose = .vadBargeIn then none
  else if stageRank cfg.purpose < maxRank ps ∧ cfg.fsFlags &&& smbfFirst = 0 then
    some ⟨.failedPrecondition, str "out-of-order attach: purpose=" ++ cfg.purpose.name ++ str " rank=" ++
      str (toString (stageRank cfg.purpose)) ++ str " already-attached max-rank=" ++ str (toString (maxRank ps))⟩
  else none

/-- What happens around one `Attach`: the uuid of the session, the allocations, and what FreeSWITCH answers. -/
structure AttachEnv where
  uuid   : Bytes
  lock   : Bool
  ctx    : Bool
  addRc  : Nat
  record : Bool

/-- What `Attach` answers once its validation has passed. -/
def AttachEnv.failure (env : AttachEnv) : Option Status :=
  if !env.ctx then some ⟨.resourceExhausted, str "failed to allocate BugCallbackContext"⟩
  else if env.addRc ≠ 0 then
    some ⟨.internal, str "switch_core_media_bug_add failed: rc=" ++ str (toString env.addRc)⟩
  else if !env.record then some ⟨.resourceExhausted, str "failed to allocate BugRecord"⟩
  else none

def effectiveConfig (cfg : BugConfig) : BugConfig :=
  if cfg.purpose = .vadBargeIn then { cfg with fsFlags := cfg.fsFlags ||| smbfFirst } else cfg

theorem effectiveConfig_purpose (cfg : BugConfig) : (effectiveConfig cfg).purpose = cfg.purpose := by
  unfold effectiveConfig
  split <;> rfl

/-- `Attach`: the id of the new bug's handle, or the status it failed with. -/
def attach (cfg : BugConfig) (env : AttachEnv) : BugManager × Except Status Nat :=
  if env.uuid = [] then (m, .error ⟨.invalidArgument, str "session has no UUID"⟩)
  else if !env.lock then (m, .error ⟨.resourceExhausted, str "failed to allocate channel lifecycle lock"⟩)
  else
    match checkAttach cfg (m.purposesOn env.uuid) with
    | some st => (m, .error st)
    | none =>
      match env.failure with
      | some st => (m.skipId, .error st)
      | none    => (m.register env.uuid (effectiveConfig cfg), .ok m.nextId)

/-- Why an `Attach` fails, if it does, given the purposes on the channel. -/
def attachError (cfg : BugConfig) (env : AttachEnv) (ps : List Purpose) : Option Status :=
  if env.uuid = [] then some ⟨.invalidArgument, str "session has no UUID"⟩
  else if !env.lock then some ⟨.resourceExhausted, str "failed to allocate channel lifecycle lock"⟩
  else (checkAttach cfg ps).or env.failure

/-- **One `Attach`**: it fails and the bugs are the same, or it adds one with the next id. -/
theorem attach_cases (cfg : BugConfig) (env : AttachEnv) :
    (∃ st, attachError cfg env (m.purposesOn env.uuid) = some st ∧ (m.attach cfg env).2 = .error st ∧
      SameBugs m (m.attach cfg env).1) ∨
    (attachError cfg env (m.purposesOn env.uuid) = none ∧
      m.attach cfg env = (m.register env.uuid (effectiveConfig cfg), .ok m.nextId)) := by
  unfold attach attachError
  split
  · exact .inl ⟨_, rfl, rfl, .rfl' m⟩
  split
  · exact .inl ⟨_, rfl, rfl, .rfl' m⟩
  cases hc : checkAttach cfg (m.purposesOn env.uuid) with
  | some st => exact .inl ⟨st, rfl, rfl, .rfl' m⟩
  | none =>
    cases hf : env.failure with
    | some st => exact .inl ⟨st, rfl, rfl, rfl, rfl⟩
    | none => exact .inr ⟨rfl, rfl⟩

/-- An `Attach` that does not fail found no bug of its purpose. -/
theorem not_mem_of_attachError {cfg : BugConfig} {env : AttachEnv} {ps : List Purpose}
    (h : attachError cfg env ps = none) (hp : cfg.purpose ≠ .recordingRelay) : env.uuid ≠ [] ∧ cfg.purpose ∉ ps := by
  unfold attachError at h
  split_ifs at h with hu hl
  refine ⟨hu, fun hmem => ?_⟩
  have hc := (Option.or_eq_none_iff.1 h).1
  unfold checkAttach at hc
  rw [if_neg (fun hr => hp hr.1), if_pos ⟨hp, List.contains_iff_mem.2 hmem⟩] at hc
  cases hc

theorem attach_nextId (cfg : BugConfig) (env : AttachEnv) : m.nextId ≤ (m.attach cfg env).1.nextId := by
  unfold attach
  split
  · exact Nat.le_refl _
  split
  · exact Nat.le_refl _
  cases checkAttach cfg (m.purposesOn env.uuid) with
  | some st => exact Nat.le_refl _
  | none => cases env.failure <;> exact Nat.le_succ _

/-! ## What detaching leaves -/

theorem detach_of_none (h : m.byId id = none) : m.detach id = m := by
  unfold detach
  split
  · rfl
  · rename_i r hr
    rw [h] at hr
    cases hr

theorem detach_byId (id : Nat) : (m.detach id).byId = Function.update m.byId id none := by
  cases h : m.byId id with
  | none => rw [m.detach_of_none h, ← h, Function.update_eq_self]
  | some r =>
    unfold detach
    split
    · rename_i hn
      rw [h] at hn
      cases hn
    · rfl

theorem detach_nextId (id : Nat) : (m.detach id).nextId = m.nextId := by
  unfold detach
  split <;> rfl

theorem detach_channelIds (id : Nat) (uuid : Bytes) :
    (m.detach id).channelIds uuid = (m.channelIds uuid).filter (fun x => x != id) := by
  have habsent : m.byId id = none ∨ (∃ r, m.byId id = some r ∧ r.channelUuid ≠ uuid) →
      (m.channelIds uuid).filter (fun x => x != id) = m.channelIds uuid := by
    intro h
    refine List.filter_eq_self.2 (fun x hx => ?_)
    obtain ⟨r, hr, hu⟩ := (m.mem_channelIds).1 hx
    simp only [bne_iff_ne, ne_eq]
    rintro rfl
    rcases h with h | ⟨r', hr', hu'⟩
    · rw [h] at hr
      cases hr
    · rw [hr'] at hr
      cases hr
      exact hu' hu
  cases h : m.byId id with
  | none => rw [m.detach_of_none h, habsent (.inl h)]
  | some r =>
    have hbc : (m.detach id).byChannel =
        Function.update m.byChannel r.channelUuid (without (m.channelIds r.channelUuid) id) := by
      unfold detach
      split
      · rename_i hn
        rw [h] at hn
        cases hn
      · rename_i r' hr'
        rw [h] at hr'
        cases hr'
        rfl
    by_cases hu : uuid = r.channelUuid
    · subst hu
      rw [channelIds, hbc, Function.update_self, without]
      split
      · rename_i hn
        exact hn.symm
      · rfl
    · rw [channelIds, hbc, Function.update_of_ne hu, habsent (.inr ⟨r, h, fun he => hu he.symm⟩)]
      rfl

theorem detachEach_byId : ∀ (ids : List Nat) (m : BugManager) (x : Nat),
    (m.detachEach ids).byId x = if x ∈ ids then none else m.byId x
  | [], m, x => by simp [detachEach]
  | id :: ids, m, x => by
    have ih := detachEach_byId ids (m.detach id) x
    rw [detachEach, List.foldl_cons, ← detachEach, ih, m.detach_byId]
    by_cases hx : x = id
    · subst hx
      simp [Function.update_self]
    · simp [hx]

theorem detachEach_nextId : ∀ (ids : List Nat) (m : BugManager), (m.detachEach ids).nextId = m.nextId
  | [], _ => rfl
  | id :: ids, m => (detachEach_nextId ids (m.detach id)).trans (m.detach_nextId id)

theorem detachEach_channelIds : ∀ (ids : List Nat) (m : BugManager) (uuid : Bytes),
    (m.detachEach ids).channelIds uuid = (m.channelIds uuid).filter (fun x => !ids.contains x)
  | [], m, uuid => (List.filter_eq_self.2 (fun _ _ => rfl)).symm
  | id :: ids, m, uuid => by
    have ih := detachEach_channelIds ids (m.detach id) uuid
    rw [detachEach, List.foldl_cons, ← detachEach, ih, m.detach_channelIds, List.filter_filter]
    refine List.filter_congr (fun x _ => ?_)
    by_cases hx : x = id <;> simp [hx]

/-- The purposes left on a channel when some bugs are gone. -/
def purposesLeft (ids : List Nat) (uuid : Bytes) : List Purpose :=
  ((m.channelIds uuid).filter (fun x => !ids.contains x)).filterMap (fun id => (m.byId id).map (·.config.purpose))

theorem detachEach_purposesOn (ids : List Nat) (uuid : Bytes) :
    (m.detachEach ids).purposesOn uuid = m.purposesLeft ids uuid := by
  rw [purposesOn, purposesLeft, detachEach_channelIds]
  refine List.filterMap_congr (fun x hx => ?_)
  have hnot : x ∉ ids := by simpa using (List.mem_filter.1 hx).2
  rw [detachEach_byId, if_neg hnot]

/-! ## What registering adds -/

theorem register_channelIds_self (uuid : Bytes) (cfg : BugConfig) :
    (m.register uuid cfg).channelIds uuid = m.channelIds uuid ++ [m.nextId] := by
  simp only [register, channelIds, Function.update_self, Option.getD_some]

theorem register_channelIds_of_ne {c : Bytes} (cfg : BugConfig) (h : c ≠ uuid) :
    (m.register uuid cfg).channelIds c = m.channelIds c := by
  simp only [register, channelIds, Function.update_of_ne h]

theorem register_byId_of_ne {cfg : BugConfig} (h : id ≠ m.nextId) : (m.register uuid cfg).byId id = m.byId id := by
  simp only [register, Function.update_of_ne h]

theorem register_byId_self (uuid : Bytes) (cfg : BugConfig) :
    (m.register uuid cfg).byId m.nextId = some ⟨m.nextId, uuid, cfg⟩ := by
  simp only [register, Function.update_self]

theorem register_purposesOn (uuid : Bytes) (cfg : BugConfig) :
    (m.register uuid cfg).purposesOn uuid = m.purposesOn uuid ++ [cfg.purpose] := by
  rw [purposesOn, register_channelIds_self, List.filterMap_append, purposesOn]
  congr 1
  · refine List.filterMap_congr (fun x hx => ?_)
    obtain ⟨r, hr, -⟩ := (m.mem_channelIds).1 hx
    rw [register_byId_of_ne m (Nat.ne_of_lt (m.fresh x r hr))]
  · simp [register_byId_self]

theorem SameBugs.detach {m : BugManager} (h : SameBugs m m') (id : Nat) : SameBugs (m.detach id) (m'.detach id) := by
  refine sameBugs_of_maps ?_ (fun c => ?_)
  · rw [detach_byId, detach_byId, h.1]
  · rw [detach_channelIds, detach_channelIds, h.channelIds]

theorem SameBugs.detachEach : ∀ (ids : List Nat) {m m' : BugManager}, SameBugs m m' →
    SameBugs (m.detachEach ids) (m'.detachEach ids)
  | [], _, _, h => h
  | id :: ids, _, _, h => SameBugs.detachEach ids (h.detach id)

theorem channelIds_lt (h : id ∈ m.channelIds uuid) : id < m.nextId := by
  obtain ⟨r, hr, -⟩ := (m.mem_channelIds).1 h
  exact m.fresh id r hr

/-- **A bug that is attached and detached again leaves the registry as it was.** -/
theorem detach_register (uuid : Bytes) (cfg : BugConfig) :
    SameBugs m ((m.register uuid cfg).detach m.nextId) := by
  refine sameBugs_of_maps ?_ (fun c => ?_)
  · rw [detach_byId]
    funext x
    by_cases hx : x = m.nextId
    · subst hx
      rw [Function.update_self, m.byId_nextId]
    · rw [Function.update_of_ne hx, register_byId_of_ne m hx]
  · have hold : (m.channelIds c).filter (fun x => x != m.nextId) = m.channelIds c :=
      List.filter_eq_self.2 (fun x hx => by simpa using Nat.ne_of_lt (m.channelIds_lt hx))
    rw [detach_channelIds]
    by_cases hc : c = uuid
    · subst hc
      rw [register_channelIds_self, List.filter_append, hold]
      simp
    · rw [register_channelIds_of_ne m cfg hc, hold]

/-- Two bugs may be detached in either order. -/
theorem detach_comm (a b : Nat) : SameBugs ((m.detach a).detach b) ((m.detach b).detach a) := by
  refine sameBugs_of_maps ?_ (fun c => ?_)
  · simp only [detach_byId]
    by_cases hab : a = b
    · subst hab
      rfl
    · exact (Function.update_comm hab none none m.byId).symm
  · simp only [detach_channelIds, List.filter_filter]
    exact List.filter_congr (fun x _ => Bool.and_comm _ _)

end BugManager
end Media
end Osw
