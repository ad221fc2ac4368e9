import OpenSwitch.BugManager
/-!
# BugRegistry — the two maps of the bug registry on their own

`by_id_` and `by_channel_` as they are, with nothing that ties them together: what `Attach` emplaces and what
`DetachInternalLocked` erases.  `Ok` says what they should satisfy: they are inverse to each other, and the list of a
channel stands in attach order, each bug after those it may follow.  A registry that is `Ok` is one of `BugManager`,
and the two operations are `BugManager.register` and `BugManager.detach` there.
-/
namespace Osw
namespace Media

/-- `by_id_` and `by_channel_`. -/
@[ext] structure Records where
  byId      : Nat → Option BugRecord
  byChannel : Bytes → Option (List Nat)

namespace Records

def empty : Records := ⟨fun _ => none, fun _ => none⟩

/-- The list of a channel. -/
def ids (m : Records) (c : Bytes) : List Nat := (m.byChannel c).getD []

/-- The purposes `HasPurpose`, `HasInjectBugLocked` and `MaxRankForChannel` look at. -/
def purposesOn (m : Records) (c : Bytes) : List Purpose :=
  (m.ids c).filterMap (fun id => (m.byId id).map (·.config.purpose))

/-- `by_id_.emplace` and `by_channel_[uuid].push_back`: an id that is there keeps its record. -/
def emplace (m : Records) (id : Nat) (uuid : Bytes) (cfg : BugConfig) : Records where
  byId := if (m.byId id).isSome then m.byId else Function.update m.byId id (some ⟨id, uuid, cfg⟩)
  byChannel := Function.update m.byChannel uuid (some (m.ids uuid ++ [id]))

/-- The registry section of `DetachInternalLocked`: an unknown id changes nothing. -/
def erase (m : Records) (id : Nat) : Records :=
  match m.byId id with
  | none => m
  | some r =>
    { byId := Function.update m.byId id none
      byChannel :=
        match m.byChannel r.channelUuid with
        | none     => m.byChannel
        | some ids => Function.update m.byChannel r.channelUuid (BugManager.without ids id) }

/-- A bug may stand after another on a channel: not for the same purpose, unless that is the recording relay, and, if it
was attached without `SMBF_FIRST`, at no lower a rank. -/
structure MayFollow (a b : BugRecord) : Prop where
  purpose : a.config.purpose = b.config.purpose → b.config.purpose = .recordingRelay
  rank    : b.config.fsFlags &&& smbfFirst = 0 → stageRank a.config.purpose ≤ stageRank b.config.purpose

/-- What the registry should satisfy. -/
structure Ok (m : Records) : Prop where
  listed  : ∀ id r, m.byId id = some r → r.id = id ∧ id ∈ m.ids r.channelUuid
  indexed : ∀ c ids, m.byChannel c = some ids → ids ≠ []
  known   : ∀ c, ∀ id ∈ m.ids c, ∃ r, m.byId id = some r ∧ r.channelUuid = c
  order   : ∀ c, (m.ids c).Pairwise (fun a b =>
    a < b ∧ ∀ ra rb, m.byId a = some ra → m.byId b = some rb → MayFollow ra rb)

theorem Ok.empty : Records.empty.Ok := ⟨nofun, nofun, nofun, fun _ => .nil⟩

/-- A bug with this id and configuration may be put at the end of the channel's list. -/
def Clear (m : Records) (uuid : Bytes) (id : Nat) (cfg : BugConfig) : Prop :=
  ∀ a ∈ m.ids uuid, a < id ∧ ∀ ra, m.byId a = some ra → MayFollow ra ⟨id, uuid, cfg⟩

/-- Two registries that are the same on a channel. -/
structure SameOn (c : Bytes) (m m' : Records) : Prop where
  ids  : m'.ids c = m.ids c
  byId : ∀ a ∈ m.ids c, m'.byId a = m.byId a

variable {cfg : BugConfig} {m : Records}

theorem Clear.of_sameOn {m' : Records} {uuid : Bytes} {id : Nat} (h : m.Clear uuid id cfg) (hs : SameOn uuid m m') :
    m'.Clear uuid id cfg := by
  intro a ha
  rw [hs.ids] at ha
  rw [hs.byId a ha]
  exact h a ha

/-! ## Emplacing -/

section emplace

variable {m : Records} {id : Nat} {uuid : Bytes} {cfg : BugConfig}

theorem emplace_byId (hnew : m.byId id = none) :
    (m.emplace id uuid cfg).byId = Function.update m.byId id (some ⟨id, uuid, cfg⟩) := by
  simp [emplace, hnew]

theorem emplace_ids_self : (m.emplace id uuid cfg).ids uuid = m.ids uuid ++ [id] := by
  simp [emplace, ids]

theorem emplace_ids_of_ne {c : Bytes} (hc : c ≠ uuid) : (m.emplace id uuid cfg).ids c = m.ids c := by
  simp only [emplace, ids, Function.update_of_ne hc]

theorem Ok.ne_of_mem (h : m.Ok) (hnew : m.byId id = none) {c : Bytes} {a : Nat} (ha : a ∈ m.ids c) : a ≠ id := by
  rintro rfl
  obtain ⟨r, hr, -⟩ := h.known c a ha
  rw [hnew] at hr
  cases hr

theorem Ok.emplace_sameOn (h : m.Ok) (hnew : m.byId id = none) {c : Bytes} (hc : c ≠ uuid) :
    SameOn c m (m.emplace id uuid cfg) := by
  refine ⟨emplace_ids_of_ne hc, fun a ha => ?_⟩
  rw [emplace_byId hnew, Function.update_of_ne (h.ne_of_mem hnew ha)]

/-- **A bug that is clear of the others keeps the registry as it should be.** -/
theorem Ok.emplace (h : m.Ok) (hnew : m.byId id = none) (hclear : m.Clear uuid id cfg) :
    (m.emplace id uuid cfg).Ok := by
  have hold : ∀ {c : Bytes} {a : Nat}, a ∈ m.ids c → (m.emplace id uuid cfg).byId a = m.byId a := by
    intro c a ha
    rw [emplace_byId hnew, Function.update_of_ne (h.ne_of_mem hnew ha)]
  have hself : (m.emplace id uuid cfg).byId id = some ⟨id, uuid, cfg⟩ := by
    rw [emplace_byId hnew, Function.update_self]
  refine ⟨?_, ?_, ?_, ?_⟩
  · intro a r hr
    by_cases ha : a = id
    · subst ha
      rw [hself] at hr
      cases hr
      exact ⟨rfl, by rw [emplace_ids_self]; simp⟩
    · rw [emplace_byId hnew, Function.update_of_ne ha] at hr
      obtain ⟨hid, hmem⟩ := h.listed a r hr
      refine ⟨hid, ?_⟩
      by_cases hu : r.channelUuid = uuid
      · rw [hu, emplace_ids_self]
        exact List.mem_append_left _ (hu ▸ hmem)
      · rw [emplace_ids_of_ne hu]
        exact hmem
  · intro c ids hc
    by_cases hcu : c = uuid
    · subst hcu
      simp only [Records.emplace, Function.update_self, Option.some.injEq] at hc
      rw [← hc]
      simp
    · simp only [Records.emplace, Function.update_of_ne hcu] at hc
      exact h.indexed c ids hc
  · intro c a ha
    by_cases hcu : c = uuid
    · subst hcu
      rw [emplace_ids_self] at ha
      rcases List.mem_append.1 ha with ha | ha
      · obtain ⟨r, hr, hu⟩ := h.known c a ha
        exact ⟨r, by rw [hold ha]; exact hr, hu⟩
      · rw [List.mem_singleton.1 ha]
        exact ⟨_, hself, rfl⟩
    · rw [emplace_ids_of_ne hcu] at ha
      obtain ⟨r, hr, hu⟩ := h.known c a ha
      exact ⟨r, by rw [hold ha]; exact hr, hu⟩
  · intro c
    have hkeep : (m.ids c).Pairwise (fun a b => a < b ∧ ∀ ra rb, (m.emplace id uuid cfg).byId a = some ra →
        (m.emplace id uuid cfg).byId b = some rb → MayFollow ra rb) := by
      refine (h.order c).imp_of_mem ?_
      intro a b ha hb hab
      rw [hold ha, hold hb]
      exact hab
    by_cases hcu : c = uuid
    · subst hcu
      rw [emplace_ids_self]
      refine List.pairwise_append.2 ⟨hkeep, List.pairwise_singleton _ _, ?_⟩
      intro a ha b hb
      rw [List.mem_singleton.1 hb]
      refine ⟨(hclear a ha).1, fun ra rb hra hrb => ?_⟩
      rw [hself] at hrb
      cases hrb
      rw [hold ha] at hra
      exact (hclear a ha).2 ra hra
    · rw [emplace_ids_of_ne hcu]
      exact hkeep

end emplace

/-! ## Erasing -/

section erase

variable {m : Records} {id : Nat}

theorem erase_of_none (h : m.byId id = none) : m.erase id = m := by
  simp only [erase, h]

theorem erase_byId (m : Records) (id : Nat) : (m.erase id).byId = Function.update m.byId id none := by
  cases h : m.byId id with
  | none => rw [erase_of_none h, ← h, Function.update_eq_self]
  | some r => simp only [erase, h]

theorem erase_byId_some {a : Nat} {r : BugRecord} (h : (m.erase id).byId a = some r) : a ≠ id ∧ m.byId a = some r := by
  rw [erase_byId] at h
  by_cases hai : a = id
  · subst hai
    rw [Function.update_self] at h
    cases h
  · rw [Function.update_of_ne hai] at h
    exact ⟨hai, h⟩

theorem erase_byChannel {r : BugRecord} (h : m.Ok) (hr : m.byId id = some r) :
    (m.erase id).byChannel = Function.update m.byChannel r.channelUuid
      (BugManager.without (m.ids r.channelUuid) id) := by
  obtain ⟨-, hmem⟩ := h.listed id r hr
  cases hc : m.byChannel r.channelUuid with
  | none => simp [ids, hc] at hmem
  | some l => simp [erase, hr, hc, ids]

theorem without_getD (l : List Nat) (id : Nat) : (BugManager.without l id).getD [] = l.filter (fun x => x != id) := by
  unfold BugManager.without
  split
  · rename_i hnil
    exact hnil.symm
  · rfl

theorem Ok.erase_ids (h : m.Ok) (id : Nat) (c : Bytes) : (m.erase id).ids c = (m.ids c).filter (fun x => x != id) := by
  have hout : (∀ r, m.byId id = some r → r.channelUuid ≠ c) → (m.ids c).filter (fun x => x != id) = m.ids c := by
    intro hne
    refine List.filter_eq_self.2 (fun x hx => ?_)
    obtain ⟨r, hr, hu⟩ := h.known c x hx
    simp only [bne_iff_ne, ne_eq]
    rintro rfl
    exact hne r hr hu
  cases hr : m.byId id with
  | none => rw [erase_of_none hr, hout (by simp [hr])]
  | some r =>
    by_cases hc : c = r.channelUuid
    · subst hc
      simp only [ids, erase_byChannel h hr, Function.update_self, without_getD]
    · have hne : ∀ r', m.byId id = some r' → r'.channelUuid ≠ c := by
        intro r' hr' hu
        rw [hr] at hr'
        cases hr'
        exact hc hu.symm
      rw [hout hne]
      simp only [ids, erase_byChannel h hr, Function.update_of_ne hc]

theorem Ok.clear_erase (h : m.Ok) {c : Bytes} {a : Nat} (hc : m.Clear c a cfg) (id : Nat) :
    (m.erase id).Clear c a cfg := by
  intro b hb
  rw [h.erase_ids] at hb
  obtain ⟨hlt, hfollow⟩ := hc b (List.mem_filter.1 hb).1
  exact ⟨hlt, fun rb hrb => hfollow rb (erase_byId_some hrb).2⟩

/-- **What is left after a bug is gone is as it should be.** -/
theorem Ok.erase (h : m.Ok) (id : Nat) : (m.erase id).Ok := by
  have hmem : ∀ {c : Bytes} {a : Nat}, a ∈ (m.erase id).ids c ↔ a ∈ m.ids c ∧ a ≠ id := by
    intro c a
    rw [h.erase_ids, List.mem_filter]
    simp
  refine ⟨?_, ?_, ?_, ?_⟩
  · intro a r hr
    obtain ⟨hai, hr⟩ := erase_byId_some hr
    obtain ⟨hid, hin⟩ := h.listed a r hr
    exact ⟨hid, hmem.2 ⟨hin, hai⟩⟩
  · intro c l hl
    cases hr : m.byId id with
    | none =>
      rw [erase_of_none hr] at hl
      exact h.indexed c l hl
    | some r =>
      rw [erase_byChannel h hr] at hl
      by_cases hc : c = r.channelUuid
      · subst hc
        rw [Function.update_self, BugManager.without] at hl
        split at hl
        · cases hl
        · rename_i hne
          cases hl
          exact hne
      · rw [Function.update_of_ne hc] at hl
        exact h.indexed c l hl
  · intro c a ha
    obtain ⟨hin, hai⟩ := hmem.1 ha
    obtain ⟨r, hr, hu⟩ := h.known c a hin
    exact ⟨r, by rw [erase_byId, Function.update_of_ne hai]; exact hr, hu⟩
  · intro c
    rw [h.erase_ids]
    refine ((h.order c).filter _).imp ?_
    intro a b hab
    exact ⟨hab.1, fun ra rb hra hrb => hab.2 ra rb (erase_byId_some hra).2 (erase_byId_some hrb).2⟩

end erase

/-! ## Validation -/

theorem mem_purposesOn {c : Bytes} {a : Nat} {r : BugRecord} (ha : a ∈ m.ids c) (hr : m.byId a = some r) :
    r.config.purpose ∈ m.purposesOn c :=
  List.mem_filterMap.2 ⟨a, ha, by rw [hr]; rfl⟩

theorem stageRank_le_maxRank {p : Purpose} {ps : List Purpose} (h : p ∈ ps) : stageRank p ≤ BugManager.maxRank ps := by
  have hfold : ∀ (l : List Nat) (b : Nat), b ≤ l.foldl max b ∧ ∀ x ∈ l, x ≤ l.foldl max b := by
    intro l
    induction l with
    | nil => intro b; exact ⟨Nat.le_refl b, nofun⟩
    | cons y l ih =>
      intro b
      obtain ⟨hb, hl⟩ := ih (max b y)
      refine ⟨Nat.le_trans (Nat.le_max_left b y) hb, fun x hx => ?_⟩
      rcases List.mem_cons.1 hx with rfl | hx
      · exact Nat.le_trans (Nat.le_max_right b x) hb
      · exact hl x hx
  exact (hfold (ps.map stageRank) 0).2 _ (List.mem_map_of_mem h)

/-- The bug of a barge-in detector is always attached with `SMBF_FIRST`. -/
theorem effectiveConfig_first (h : (BugManager.effectiveConfig cfg).fsFlags &&& smbfFirst = 0) :
    cfg.purpose ≠ .vadBargeIn ∧ cfg.fsFlags &&& smbfFirst = 0 := by
  unfold BugManager.effectiveConfig at h
  split at h
  · exfalso
    have hflag : (cfg.fsFlags ||| smbfFirst) &&& smbfFirst = smbfFirst := by
      apply UInt32.toNat_inj.1
      rw [UInt32.toNat_and, UInt32.toNat_or]
      apply Nat.eq_of_testBit_eq
      intro i
      rw [Nat.testBit_and, Nat.testBit_or]
      cases (smbfFirst.toNat.testBit i) <;> simp
    simp only at h
    rw [hflag] at h
    exact absurd h (by decide)
  · rename_i hp
    exact ⟨hp, h⟩

/-- **A validated bug with an id above all others is clear of the bugs of its channel.** -/
theorem clear_of_checkAttach {uuid : Bytes} {id : Nat} (hcheck : BugManager.checkAttach cfg (m.purposesOn uuid) = none)
    (hid : ∀ a ∈ m.ids uuid, a < id) : m.Clear uuid id (BugManager.effectiveConfig cfg) := by
  intro a ha
  refine ⟨hid a ha, fun ra hra => ?_⟩
  have hmem := mem_purposesOn ha hra
  unfold BugManager.checkAttach at hcheck
  split_ifs at hcheck with hrelay hpurpose hvad hrank
  · -- the barge-in detector: `SMBF_FIRST` is set, so its rank is free
    refine ⟨fun hp => ?_, fun hflag => absurd hvad (effectiveConfig_first hflag).1⟩
    simp only [BugManager.effectiveConfig_purpose] at hp ⊢
    by_contra hne
    exact hpurpose ⟨hne, List.contains_iff_mem.2 (hp ▸ hmem)⟩
  · refine ⟨fun hp => ?_, fun hflag => ?_⟩
    · simp only [BugManager.effectiveConfig_purpose] at hp ⊢
      by_contra hne
      exact hpurpose ⟨hne, List.contains_iff_mem.2 (hp ▸ hmem)⟩
    · simp only [BugManager.effectiveConfig_purpose]
      have hle := stageRank_le_maxRank hmem
      have hnot : ¬ stageRank cfg.purpose < BugManager.maxRank (m.purposesOn uuid) :=
        fun hlt => hrank ⟨hlt, (effectiveConfig_first hflag).2⟩
      omega

/-! ## The registry of `BugManager` -/

/-- The maps of a registry. -/
def ofManager (m : BugManager) : Records := ⟨m.byId, m.byChannel⟩

/-- **A registry as it should be is one of `BugManager`**, when no id of it was drawn later. -/
def Ok.toManager {m : Records} (h : m.Ok) (nextId : Nat) (hnext : ∀ id r, m.byId id = some r → id < nextId) :
    BugManager where
  byId := m.byId
  byChannel := m.byChannel
  nextId := nextId
  listed := by
    intro id r hr
    obtain ⟨hid, hmem⟩ := h.listed id r hr
    cases hc : m.byChannel r.channelUuid with
    | none => simp [ids, hc] at hmem
    | some l => exact ⟨hid, l, rfl, by simpa [ids, hc] using hmem⟩
  indexed := by
    intro c l hl
    have hids : m.ids c = l := by simp [ids, hl]
    refine ⟨h.indexed c l hl, ?_, fun id hid => h.known c id (hids ▸ hid)⟩
    rw [← hids]
    exact (h.order c).imp (fun hab => Nat.ne_of_lt hab.1)
  fresh := hnext

theorem ofManager_register (m : BugManager) (uuid : Bytes) (cfg : BugConfig) :
    ofManager (m.register uuid cfg) = (ofManager m).emplace m.nextId uuid cfg := by
  have hnew : (ofManager m).byId m.nextId = none := m.byId_nextId
  ext1
  · rw [emplace_byId hnew]
    rfl
  · rfl

theorem ofManager_detach (m : BugManager) (id : Nat) : ofManager (m.detach id) = (ofManager m).erase id := by
  have hids : ∀ (m : BugManager) (c : Bytes), (ofManager m).ids c = m.channelIds c := fun _ _ => rfl
  cases hr : m.byId id with
  | none => rw [m.detach_of_none hr, erase_of_none hr]
  | some r =>
    obtain ⟨-, l, hl, -⟩ := m.listed id r hr
    have hlist : m.channelIds r.channelUuid = l := by simp [BugManager.channelIds, hl]
    ext1
    · rw [erase_byId]
      exact m.detach_byId id
    · have hone : ((ofManager m).erase id).byChannel
          = Function.update m.byChannel r.channelUuid (BugManager.without l id) := by
        simp [erase, ofManager, hr, hl]
      rw [hone]
      funext c
      show (m.detach id).byChannel c = _
      rw [(m.detach id).byChannel_eq, m.detach_channelIds]
      by_cases hc : c = r.channelUuid
      · subst hc
        rw [Function.update_self, hlist, BugManager.without]
      · rw [Function.update_of_ne hc, m.byChannel_eq]
        have hsame : (m.channelIds c).filter (fun x => x != id) = m.channelIds c := by
          refine List.filter_eq_self.2 (fun x hx => ?_)
          obtain ⟨rx, hrx, hux⟩ := (m.mem_channelIds).1 hx
          simp only [bne_iff_ne, ne_eq]
          rintro rfl
          rw [hr] at hrx
          cases hrx
          exact hc hux.symm
        rw [hsame]

end Records
end Media
end Osw
