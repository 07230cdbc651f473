import NexusTok.Routing.Recovery

/-!
# What an administrator has disabled

A key or a channel that an administrator has disabled by hand should stay so until an administrator
enables it.  The automatic writers of the status columns are failing requests, which disable a key,
recovery tests, which enable it again, and the recomputation of the status of a channel that comes
with every change of one of its keys.  Of these only the recomputation for a platform site looks at
what it overwrites.

* `World.Kept` : what the administrators have disabled is disabled.
* `Spares` : the step overwrites nothing an administrator has disabled.
* `manual_runs_iff` : a run keeps what the administrators have said iff all its steps spare it.
-/

namespace NexusTok.Routing

open Option Table

/-- **What the administrators have disabled is disabled.** -/
structure World.Kept (w : World) : Prop where
  keys : ∀ k ∈ w.site.keys, w.heldKey k.ref = true → k.status = .manuallyDisabled
  channels : ∀ c ∈ w.site.channels, w.heldChannel c.id = true → c.status = .manuallyDisabled

/-- A change of the status of a key does not overwrite a manually disabled channel: the channel is a
platform site, or it is not manually disabled, or another of its keys is enabled and the change
enables none. -/
def Site.SparesChannel (site : Site) (key : Key) (status : Status) : Prop :=
  key.source = .platformSite ∨
    (∀ c ∈ site.channels, c.id = key.channelId → c.status ≠ .manuallyDisabled) ∨
    (status ≠ .enabled ∧ ∃ k ∈ site.keys, k.source = .keyChannel ∧ k.channelId = key.channelId ∧
      k.ref ≠ key.ref ∧ k.status = .enabled)

instance (site : Site) (key : Key) (status : Status) : Decidable (site.SparesChannel key status) :=
  inferInstanceAs (Decidable (_ ∨ _ ∨ _))

/-- An automatic change of the status of a key, if it goes through, finds neither the key nor (where
it would overwrite it) the channel manually disabled. -/
def Site.SparesKey (site : Site) (channelId : ℤ) (routingKeyId : ℕ) (status : Status)
    (reason : String) (clock : ℤ) : Prop :=
  (site.updateRoutingKeyStatus channelId routingKeyId status reason clock).isSome →
    ∀ key ∈ site.getKey channelId routingKeyId,
      key.status ≠ .manuallyDisabled ∧ site.SparesChannel key status

instance (site : Site) (channelId : ℤ) (routingKeyId : ℕ) (status : Status) (reason : String)
    (clock : ℤ) : Decidable (site.SparesKey channelId routingKeyId status reason clock) :=
  inferInstanceAs (Decidable (_ → ∀ _ ∈ _, _))

/-- **The step overwrites nothing an administrator has disabled.** -/
def Spares (p : Pool World Call) : Event → Prop
  | .disable channelId routingKeyId autoBan reason clock =>
    autoBan = true → p.shared.site.SparesKey channelId routingKeyId .autoDisabled reason clock
  | .resume i fails clock => ∀ call ∈ p.calls[i]?, call.point = .restoreWrite → fails = false →
    p.shared.site.SparesKey call.test.channelId call.test.routingKeyId .enabled "" clock
  | .adminKey channelId routingKeyId manual clock =>
    (p.shared.site.adminKeyStatus channelId routingKeyId manual clock).isSome →
      ∀ key ∈ p.shared.site.getKey channelId routingKeyId,
        p.shared.site.SparesChannel key (adminStatus manual)
  | _ => True

instance (p : Pool World Call) : (e : Event) → Decidable (Spares p e)
  | .disable _ _ _ _ _ => inferInstanceAs (Decidable (_ → _))
  | .resume _ _ _ => inferInstanceAs (Decidable (∀ _ ∈ _, _))
  | .adminKey _ _ _ _ => inferInstanceAs (Decidable (_ → ∀ _ ∈ _, _))
  | .sample _ _ _ _ _ _ => inferInstanceAs (Decidable True)
  | .recover _ => inferInstanceAs (Decidable True)
  | .adminChannel _ _ => inferInstanceAs (Decidable True)

/-! ### The marks -/

/-- The marks of the administrators and the status columns agree. -/
structure World.Marked (w : World) : Prop where
  keys : ∀ k ∈ w.site.keys, w.heldKey k.ref = true ↔ k.status = .manuallyDisabled
  channels : ∀ c ∈ w.site.channels, w.heldChannel c.id = true ↔ c.status = .manuallyDisabled

variable {w : World}

theorem World.Marked.kept (h : w.Marked) : w.Kept :=
  ⟨fun k hk => (h.keys k hk).1, fun c hc => (h.channels c hc).1⟩

variable {channelId clock : ℤ} {routingKeyId : ℕ} {status : Status} {reason : String}

theorem marked_keys (h : w.Marked) {keys : List Key} {held : ℤ × ℕ → Bool}
    (hkeys : keys = (w.site.setKeyStatus channelId routingKeyId status reason).keys)
    (hother : ∀ ref ≠ (channelId, routingKeyId), held ref = w.heldKey ref)
    (hself : held (channelId, routingKeyId) = true ↔ status = .manuallyDisabled) :
    ∀ k ∈ keys, held k.ref = true ↔ k.status = .manuallyDisabled := by
  intro k hk
  rw [hkeys, Site.mem_keys_setKeyStatus] at hk
  rcases hk with ⟨hk, href⟩ | ⟨k', hk', href, rfl⟩
  · rw [hother k.ref href]
    exact h.keys k hk
  · rw [show ({ k' with status := status, disabledReason := reason } : Key).ref =
      (channelId, routingKeyId) from href]
    exact hself

theorem marked_channels (h : w.Marked) {channels : List Channel} {held : ℤ → Bool}
    (hchannels : channels = (w.site.setChannelStatus channelId status).channels)
    (hother : ∀ id ≠ channelId, held id = w.heldChannel id)
    (hself : held channelId = true ↔ status = .manuallyDisabled) :
    ∀ c ∈ channels, held c.id = true ↔ c.status = .manuallyDisabled := by
  intro c hc
  rw [hchannels, Site.mem_channels_setChannelStatus] at hc
  rcases hc with ⟨hc, hid⟩ | ⟨c', hc', hid, rfl⟩
  · rw [hother c.id hid]
    exact h.channels c hc
  · simp only [hid]
    exact hself

theorem World.Marked.not_held (h : w.Marked) {c : Channel}
    (hc : w.site.getChannel channelId = some c) (hstatus : c.status ≠ .manuallyDisabled) :
    w.heldChannel channelId = false := by
  have hid : c.id = channelId := get_key hc
  have hmarked := h.channels c (get_mem hc)
  rw [hid] at hmarked
  simpa [hstatus] using hmarked

/-! ### Changing the status of a key -/

variable {site site' : Site}

theorem hasEnabledKey_setKeyStatus
    (status : Status) (reason : String) {k : Key} (hk : k ∈ site.keys)
    (hsource : k.source = .keyChannel) (hchannel : k.channelId = channelId)
    (href : k.ref ≠ (channelId, routingKeyId)) (henabled : k.status = .enabled) :
    (site.setKeyStatus channelId routingKeyId status reason).HasEnabledKey channelId :=
  ⟨k, Site.mem_keys_setKeyStatus.2 (Or.inl ⟨hk, href⟩), hsource, hchannel, henabled⟩

/-- **A change that spares the channel.**  The key gets its status, and the channel is left alone or
was not manually disabled. -/
theorem updateRoutingKeyStatus_spares (h : w.Marked) {key : Key}
    (hupdate : w.site.updateRoutingKeyStatus channelId routingKeyId status reason clock = some site')
    (hkey : w.site.getKey channelId routingKeyId = some key)
    (hspares : w.site.SparesChannel key status) :
    (∃ reason', site'.keys = (w.site.setKeyStatus channelId routingKeyId status reason').keys) ∧
      ∀ c ∈ site'.channels, w.heldChannel c.id = true ↔ c.status = .manuallyDisabled := by
  have href : key.ref = (channelId, routingKeyId) := get_key hkey
  have hchannel : key.channelId = channelId := congrArg Prod.fst href
  -- a channel that is not marked may be set to anything but manually disabled
  have hset : ∀ c status', w.site.getChannel channelId = some c → c.status ≠ .manuallyDisabled →
      status' ≠ .manuallyDisabled → ∀ c' ∈ (w.site.setChannelStatus channelId status').channels,
        w.heldChannel c'.id = true ↔ c'.status = .manuallyDisabled := by
    intro c status' hc hopen hstatus'
    refine marked_channels h rfl (fun _ _ => rfl) ?_
    simp [h.not_held hc hopen, hstatus']
  obtain ⟨key', reason', hkey', hcases⟩ := Site.updateRoutingKeyStatus_cases hupdate
  obtain rfl : key = key' := some.inj (hkey.symm.trans hkey')
  rcases hcases with ⟨hsource, hkc⟩ | ⟨hsource, rfl | ⟨-, hps⟩⟩
  · rcases Site.updateKeyChannelAvailability_cases hkc with ⟨rfl, -⟩ | ⟨c, status', hc, rfl, hwhy⟩
    · exact ⟨⟨reason', rfl⟩, h.channels⟩
    · refine ⟨⟨reason', rfl⟩, ?_⟩
      have hstatus' : status' ≠ .manuallyDisabled := by
        rcases hwhy with ⟨rfl, -⟩ | ⟨rfl, -⟩ <;> simp
      rcases hspares with hplatform | hopen | ⟨hne, k, hk, hksource, hkchannel, hkref, henabled⟩
      · exact absurd hsource (by simp [hplatform])
      · have hid : c.id = key.channelId := (get_key hc).trans hchannel.symm
        exact hset c status' hc (hopen c (get_mem hc) hid) hstatus'
      · -- with another key enabled, and none enabled by the change, nothing is written
        have hhas := hasEnabledKey_setKeyStatus status reason' hk hksource
          (hkchannel.trans hchannel) (href ▸ hkref) henabled
        rcases hwhy with ⟨-, henable⟩ | ⟨-, hnone⟩
        · exact absurd henable hne
        · exact absurd hhas hnone
  · exact ⟨⟨reason', rfl⟩, h.channels⟩
  · rcases Site.updatePlatformSiteChannelAvailability_cases hps with rfl | ⟨⟨c, hc, hopen⟩, rfl⟩
    · exact ⟨⟨reason', rfl⟩, h.channels⟩
    · exact ⟨⟨reason', rfl⟩, hset c .enabled hc hopen (by simp)⟩

/-- **A change that overwrites the channel.**  If afterwards all marked channels are still manually
disabled, the change was one that spares the channel. -/
theorem sparesChannel_of_kept (h : w.Marked) {key : Key}
    (hupdate : w.site.updateRoutingKeyStatus channelId routingKeyId status reason clock = some site')
    (hkey : w.site.getKey channelId routingKeyId = some key)
    (hkept : ∀ c ∈ site'.channels, w.heldChannel c.id = true → c.status = .manuallyDisabled) :
    w.site.SparesChannel key status := by
  have href : key.ref = (channelId, routingKeyId) := get_key hkey
  have hchannel : key.channelId = channelId := congrArg Prod.fst href
  obtain ⟨key', reason', hkey', hcases⟩ := Site.updateRoutingKeyStatus_cases hupdate
  obtain rfl : key = key' := some.inj (hkey.symm.trans hkey')
  rcases hcases with ⟨hsource, hkc⟩ | ⟨hsource, -⟩
  · by_contra hnot
    simp only [Site.SparesChannel, not_or, not_and, not_forall, not_not] at hnot
    obtain ⟨-, ⟨c₀, hc₀, hid₀, hmanual₀⟩, hother⟩ := hnot
    rw [hchannel] at hid₀
    have hheld : w.heldChannel channelId = true := hid₀ ▸ (h.channels c₀ hc₀).2 hmanual₀
    rcases Site.updateKeyChannelAvailability_cases hkc with
      ⟨-, hnone | ⟨⟨k, hk, hksource, hkchannel, henabled⟩, hne⟩ | ⟨c, hc, hopen⟩⟩ |
        ⟨c, status', -, rfl, hwhy⟩
    · -- the key itself is one of the channel
      refine hnone { key with status := status, disabledReason := reason' } ?_ ⟨hsource, hchannel⟩
      exact Site.mem_keys_setKeyStatus.2 (Or.inr ⟨key, get_mem hkey, href, rfl⟩)
    · rcases Site.mem_keys_setKeyStatus.1 hk with ⟨hk, hkref⟩ | ⟨k', -, -, rfl⟩
      · exact hother hne ⟨k, hk, hksource, hkchannel.trans hchannel.symm, href ▸ hkref, henabled⟩
      · exact hne henabled
    · have := h.not_held hc hopen
      rw [hheld] at this
      exact absurd this (by simp)
    · have hstatus' := hkept { c₀ with status := status' }
        (Site.mem_channels_setChannelStatus.2 (Or.inr ⟨c₀, hc₀, hid₀, rfl⟩)) (hid₀ ▸ hheld)
      rcases hwhy with ⟨rfl, -⟩ | ⟨rfl, -⟩ <;> simp at hstatus'
  · exact Or.inl hsource

theorem World.Marked.automatic (h : w.Marked) (hstatus : status ≠ .manuallyDisabled)
    (hspares : w.site.SparesKey channelId routingKeyId status reason clock) (hupdate :
      w.site.updateRoutingKeyStatus channelId routingKeyId status reason clock = some site') :
    { w with site := site' }.Marked := by
  obtain ⟨key, -, hkey, -⟩ := Site.updateRoutingKeyStatus_cases hupdate
  obtain ⟨hopen, hchannel⟩ := hspares (by rw [hupdate]; rfl) key hkey
  obtain ⟨⟨reason', hkeys⟩, hchannels⟩ := updateRoutingKeyStatus_spares h hupdate hkey hchannel
  refine ⟨marked_keys h hkeys (fun _ _ => rfl) ?_, hchannels⟩
  have hmark := h.keys key (get_mem hkey)
  rw [get_key hkey] at hmark
  simp only [hopen, iff_false, hstatus] at hmark ⊢
  exact hmark

/-- An automatic change after which everything is kept was one that spares. -/
theorem sparesKey_of_kept (h : w.Marked) (hstatus : status ≠ .manuallyDisabled)
    (hkept : ∀ site', w.site.updateRoutingKeyStatus channelId routingKeyId status reason clock =
      some site' → { w with site := site' }.Kept) :
    w.site.SparesKey channelId routingKeyId status reason clock := by
  intro hsome key hkey
  obtain ⟨site', hupdate⟩ := isSome_iff_exists.1 hsome
  have hkept' := hkept site' hupdate
  have hchannel := sparesChannel_of_kept h hupdate hkey hkept'.channels
  refine ⟨fun hmanual => ?_, hchannel⟩
  -- the key is marked, and has the new status afterwards
  have href : key.ref = (channelId, routingKeyId) := get_key hkey
  have hheld := (h.keys key (get_mem hkey)).2 hmanual
  obtain ⟨⟨reason', hkeys⟩, -⟩ := updateRoutingKeyStatus_spares h hupdate hkey hchannel
  have hmem : { key with status := status, disabledReason := reason' } ∈ site'.keys := by
    rw [hkeys]
    exact Site.mem_keys_setKeyStatus.2 (Or.inr ⟨key, get_mem hkey, href, rfl⟩)
  exact hstatus (hkept'.keys _ hmem hheld)

theorem adminKeyStatus_cases {manual : Bool}
    (h : site.adminKeyStatus channelId routingKeyId manual clock = some site') :
    ∃ key, site.getKey channelId routingKeyId = some key ∧
      ((key.source = .keyChannel ∧ ∃ reason,
        site.updateRoutingKeyStatus channelId routingKeyId (adminStatus manual) reason clock =
          some site') ∨
        (key.source = .platformSite ∧
          site' = site.setKeyStatus channelId routingKeyId (adminStatus manual) "")) := by
  unfold Site.adminKeyStatus at h
  rcases hkey : site.getKey channelId routingKeyId with _ | key
  · simp [hkey] at h
  refine ⟨key, rfl, ?_⟩
  rw [hkey] at h
  cases hsource : key.source with
  | keyChannel =>
    simp only [hsource] at h
    exact Or.inl ⟨rfl, _, h⟩
  | platformSite =>
    simp only [hsource, Option.some.injEq] at h
    exact Or.inr ⟨rfl, h.symm⟩

theorem adminStatus_eq_iff (manual : Bool) :
    manual = true ↔ adminStatus manual = .manuallyDisabled := by
  cases manual <;> simp [adminStatus]

theorem World.Marked.adminKey (h : w.Marked) {manual : Bool}
    (hspares : ∀ key ∈ w.site.getKey channelId routingKeyId,
      w.site.SparesChannel key (adminStatus manual))
    (hupdate : w.site.adminKeyStatus channelId routingKeyId manual clock = some site') :
    { w with
      site := site'
      heldKey := Function.update w.heldKey (channelId, routingKeyId) manual }.Marked := by
  have hother : ∀ ref ≠ (channelId, routingKeyId),
      Function.update w.heldKey (channelId, routingKeyId) manual ref = w.heldKey ref :=
    fun ref href => Function.update_of_ne href _ _
  have hself : Function.update w.heldKey (channelId, routingKeyId) manual
      (channelId, routingKeyId) = true ↔ adminStatus manual = .manuallyDisabled := by
    rw [Function.update_self]
    exact adminStatus_eq_iff manual
  obtain ⟨key, hkey, ⟨-, reason, hkc⟩ | ⟨-, rfl⟩⟩ := adminKeyStatus_cases hupdate
  · obtain ⟨⟨reason', hkeys⟩, hchannels⟩ :=
      updateRoutingKeyStatus_spares h hkc hkey (hspares key hkey)
    exact ⟨marked_keys h hkeys hother hself, hchannels⟩
  · exact ⟨marked_keys h rfl hother hself, h.channels⟩

/-! ### Steps -/

/-- No status has changed, and no administrator has said anything. -/
structure World.SameStatus (w w' : World) : Prop where
  keys : w'.site.keys = w.site.keys
  channels : w'.site.channels = w.site.channels
  heldKey : w'.heldKey = w.heldKey
  heldChannel : w'.heldChannel = w.heldChannel

theorem World.SameStatus.refl (w : World) : w.SameStatus w := ⟨rfl, rfl, rfl, rfl⟩

theorem World.SameStatus.marked {w' : World} (h : w.SameStatus w') (hm : w.Marked) : w'.Marked := by
  constructor
  · rw [h.keys, h.heldKey]
    exact hm.keys
  · rw [h.channels, h.heldChannel]
    exact hm.channels

/-- **One step of a recovery call, by what it does to the status columns.**  Only the step that
enables the key writes them. -/
theorem act_status (fails : Bool) (clock : ℤ) (w : World) (call : Call) :
    w.SameStatus (act fails clock w call).1 ∨
      (call.point = .restoreWrite ∧ fails = false ∧ ∃ site',
        w.site.updateRoutingKeyStatus call.test.channelId call.test.routingKeyId .enabled "" clock =
          some site' ∧ (act fails clock w call).1 = { w with site := site' }) := by
  obtain ⟨t, point⟩ := call
  cases point with
  | record | ensureWrite =>
    refine Or.inl ?_
    simp only [act]
    split
    · exact World.SameStatus.refl w
    · exact ⟨rfl, rfl, rfl, rfl⟩
  | restoreWrite =>
    cases fails with
    | true => exact Or.inl (World.SameStatus.refl w)
    | false =>
      cases hupdate : w.site.updateRoutingKeyStatus t.channelId t.routingKeyId .enabled "" clock with
      | none =>
        refine Or.inl ?_
        simp only [act, hupdate]
        exact World.SameStatus.refl w
      | some site' => exact Or.inr ⟨rfl, rfl, site', rfl, by simp [act, hupdate]⟩
  | restoreKey | restoreHealth | ensureHealth | ensureKey | ensureSummary =>
    refine Or.inl ?_
    simp only [act]
    repeat' split
    all_goals exact World.SameStatus.refl w

theorem World.Marked.step {p : Pool World Call} {e : Event} (h : p.shared.Marked)
    (hspares : Spares p e) : (step p e).shared.Marked := by
  cases e with
  | sample id success latency unixTime timestamp summary =>
    have hsame : p.shared.SameStatus
        (p.shared.recordSample id success latency unixTime timestamp summary) := by
      unfold World.recordSample
      split
      · exact World.SameStatus.refl _
      · exact ⟨rfl, rfl, rfl, rfl⟩
    exact hsame.marked h
  | recover test => exact h
  | resume i fails clock =>
    rcases p.resume_cases (act fails clock) i with ⟨-, hsame⟩ | ⟨before, call, after, hcall, -,
      hresume⟩
    · simp only [Routing.step, hsame]
      exact h
    · simp only [Routing.step, hresume]
      rcases act_status fails clock p.shared call with hsame | ⟨hpoint, hfails, site', hupdate, hact⟩
      · exact hsame.marked h
      · rw [hact]
        exact h.automatic (by simp) (hspares call hcall hpoint hfails) hupdate
  | disable channelId id autoBan reason clock =>
    simp only [Routing.step, Pool.outside_shared, World.apply]
    split_ifs with hban
    · split
      · exact h
      · next site' hupdate => exact h.automatic (by simp) (hspares hban) hupdate
    · exact h
  | adminKey channelId id manual clock =>
    simp only [Routing.step, Pool.outside_shared, World.apply]
    split
    · exact h
    · next site' hupdate => exact h.adminKey (hspares (by rw [hupdate]; rfl)) hupdate
  | adminChannel channelId manual =>
    refine ⟨h.keys, marked_channels h rfl (fun id hid => Function.update_of_ne hid _ _) ?_⟩
    change Function.update p.shared.heldChannel channelId manual channelId = true ↔ _
    rw [Function.update_self]
    exact adminStatus_eq_iff manual

theorem spares_of_kept {p : Pool World Call} {e : Event} (h : p.shared.Marked)
    (hkept : (step p e).shared.Kept) : Spares p e := by
  cases e with
  | sample | recover | adminChannel => trivial
  | resume i fails clock =>
    intro call hcall hpoint hfails
    refine sparesKey_of_kept h (by simp) fun site' hupdate => ?_
    rcases p.resume_cases (act fails clock) i with ⟨hnone, -⟩ | ⟨before, call', after, hcall', -,
      hresume⟩
    · rw [hnone] at hcall
      simp at hcall
    · obtain rfl : call = call' := some.inj (Eq.trans hcall.symm hcall')
      simp only [Routing.step, hresume] at hkept
      obtain ⟨t, point⟩ := call
      simp only at hpoint hupdate
      subst hpoint hfails
      simpa [act, hupdate] using hkept
  | disable channelId id autoBan reason clock =>
    intro hban
    refine sparesKey_of_kept h (by simp) fun site' hupdate => ?_
    simpa [Routing.step, World.apply, hban, hupdate] using hkept
  | adminKey channelId id manual clock =>
    intro hsome key hkey
    obtain ⟨site', hupdate⟩ := isSome_iff_exists.1 hsome
    have hchannels : ∀ c ∈ site'.channels, p.shared.heldChannel c.id = true →
        c.status = .manuallyDisabled := by
      have := hkept.channels
      simpa [Routing.step, World.apply, hupdate] using this
    obtain ⟨key', hkey', ⟨-, reason, hkc⟩ | ⟨hsource, -⟩⟩ := adminKeyStatus_cases hupdate
    · exact sparesChannel_of_kept h hkc hkey hchannels
    · obtain rfl : key = key' := some.inj (hkey.symm.trans hkey')
      exact Or.inl hsource

/-! ### Runs -/

theorem World.marked_initial (hkeys : (site.keys.map Key.ref).Nodup)
    (hchannels : (site.channels.map Channel.id).Nodup) : (World.initial site).Marked := by
  constructor
  · intro k hk
    simp only [World.initial, decide_eq_true_eq]
    constructor
    · rintro ⟨k', hk', href, hmanual⟩
      rwa [← List.inj_on_of_nodup_map hkeys hk' hk href]
    · intro hmanual
      exact ⟨k, hk, rfl, hmanual⟩
  · intro c hc
    simp only [World.initial, decide_eq_true_eq]
    constructor
    · rintro ⟨c', hc', hid, hmanual⟩
      rwa [← List.inj_on_of_nodup_map hchannels hc' hc hid]
    · intro hmanual
      exact ⟨c, hc, rfl, hmanual⟩

/-- **What an administrator has disabled.**  From any tables, with any number of recovery calls in
flight, for every interleaving of samples, recovery calls, failing requests and administrators: what
the administrators have disabled stays disabled in every state iff every step spares it. -/
theorem manual_runs_iff (site : Site) (calls : List Call) (es : List Event)
    (hkeys : (site.keys.map Key.ref).Nodup) (hchannels : (site.channels.map Channel.id).Nodup) :
    Machine.Always step (fun p => p.shared.Kept) ⟨World.initial site, calls⟩ es ↔
      Machine.Meets step Spares ⟨World.initial site, calls⟩ es :=
  Machine.always_iff_meets (I := fun p : Pool World Call => p.shared.Kept)
    (J := fun p => p.shared.Marked) (fun _ h => h.kept) (fun _ _ h hspares => h.step hspares)
    (fun _ _ h hkept => spares_of_kept h hkept) (World.marked_initial hkeys hchannels)

/-- A key channel with two keys, and a platform site with one. -/
def twoChannels : Site where
  channels := [⟨5, .keyChannel, .enabled, 0, true⟩, ⟨6, .platformSite, .manuallyDisabled, 0, true⟩]
  keys :=
    [⟨1, 5, .keyChannel, .enabled, "", 0, 10, 0, false, [], none, none⟩,
      ⟨2, 5, .keyChannel, .enabled, "", 0, 10, 0, false, [], none, none⟩,
      ⟨3, 6, .platformSite, .autoDisabled, "", 0, 10, 0, true, ["m"], none, none⟩]
  health := fun _ => none

/-- The first key is disabled by hand and the second by a failing request; a test enables the key of
the platform site. -/
def sparingRun : List Event :=
  [.adminKey 5 1 true 0, .disable 5 2 true "status code 401" 0,
    .recover ⟨3, 6, true, 120, 1000 * 1000000000, ""⟩, .resume 0 false 0, .resume 0 false 0,
    .resume 0 false 0, .resume 0 false 0]

theorem manual_runs_iff_spared :
    Machine.Always step (fun p => p.shared.Kept) ⟨World.initial twoChannels, []⟩ sparingRun := by
  exact (manual_runs_iff twoChannels [] sparingRun (by decide) (by decide)).2 (by decide)

/-- A request that fails after an administrator has disabled its key disables the key automatically,
and a recovery test enables it again. -/
theorem manual_key_enabled_again :
    let p := Machine.run step ⟨World.initial twoChannels, []⟩
      [.adminKey 5 1 true 0, .disable 5 1 true "status code 401" 0,
        .recover ⟨1, 5, true, 120, 1000 * 1000000000, ""⟩, .resume 0 false 0, .resume 0 false 0,
        .resume 0 false 0, .resume 0 false 0]
    (p.shared.site.keys.map Key.status) = [.enabled, .enabled, .autoDisabled] ∧
      p.shared.heldKey (5, 1) = true ∧ ¬ p.shared.Kept := by
  refine ⟨by decide, by decide, fun h => ?_⟩
  have hkey := h.keys ⟨1, 5, .keyChannel, .enabled, "", 0, 10, 0, false, [], none, none⟩
    (by decide) (by decide)
  exact absurd hkey (by decide)

end NexusTok.Routing
