import Rivora.Proofs.Rebuild

/-! Writing a VIP's parameters, limit and keys, and taking its keys away. -/

namespace Rivora

/-- The writes that map a VIP's key, or the blocks of its range, to its service. -/
def vipWrites (vip : VIP) (ip : IP) (serviceID : Nat) : List MapWrite :=
  if vip.isRange then
    (rangeBlocks vip.port vip.portEnd).map fun b =>
      .setVipRange (rangeKey ip (protoByte vip.protocol) b) serviceID
  else [.setVip (vipKey ip vip) serviceID]

/-- The writes that take a VIP's key, or the blocks of its range, away. -/
def vipDeletes (vip : VIP) (ip : IP) : List MapWrite :=
  if vip.isRange then
    (rangeBlocks vip.port vip.portEnd).map fun b =>
      .deleteVipRange (rangeKey ip (protoByte vip.protocol) b)
  else [.deleteVip (vipKey ip vip)]

/-- What a node can program of a VIP: its limit, its address and its range are supported. -/
structure VIP.Programmable (p : Dataplane) (vip : VIP) (ip : IP) : Prop where
  limit : p.dp.svcRlConfig = false → vip.rateLimit.set = false
  address : parseIP vip.address = some ip
  range : vip.isRange = true → p.hasRangeMap ip = true

theorem deleteBlocks_run (ip : IP) (proto : UInt8) (blocks : List PortBlock) (env : Env) (s : World) :
    ∃ s' ws, Effect.forEach blocks
        (fun b => Effect.ignoring (write (.deleteVipRange (rangeKey ip proto b)))) env s = (.ok (), s') ∧
      s'.plane = s.plane ∧ Logged s s' ws ∧
      ws.Sublist (blocks.map fun b => .deleteVipRange (rangeKey ip proto b)) ∧
      (env.Reliable → ws = blocks.map fun b => .deleteVipRange (rangeKey ip proto b)) := by
  induction blocks generalizing s with
  | nil => exact ⟨s, [], rfl, rfl, by simp [Logged], List.Sublist.refl _, fun _ => rfl⟩
  | cons b rest ih =>
    obtain ⟨s₁, ws₁, run₁, plane₁, logged₁, outcome⟩ :=
      ignoring_write (.deleteVipRange (rangeKey ip proto b)) env s
    obtain ⟨s', ws, run, plane, logged, sub, all⟩ := ih s₁
    refine ⟨s', ws₁ ++ ws, ?_, plane.trans plane₁, logged₁.trans logged, ?_, ?_⟩
    · simp only [Effect.forEach, Effect.bind_apply, run₁, run]
    · rcases outcome with rfl | ⟨rfl, _⟩
      · exact sub.cons_cons _
      · exact sub.cons _
    · intro reliable
      rcases outcome with rfl | ⟨_, fails⟩
      · rw [all reliable]
        rfl
      · exact absurd (fails rfl) (reliable _)

theorem rangeMapWriteFrom_run (ip : IP) (proto : UInt8) (serviceID : Nat) (blocks : List PortBlock)
    (written : List PortBlock) (env : Env) (s : World) :
    ∃ s' ws, s'.plane = s.plane ∧ Logged s s' ws ∧
      ((rangeMapWriteFrom ip proto serviceID written blocks env s = (.ok (), s') ∧
          ws = blocks.map fun b => .setVipRange (rangeKey ip proto b) serviceID) ∨
        ((∃ e, rangeMapWriteFrom ip proto serviceID written blocks env s = (.error e, s')) ∧
          (∀ w ∈ ws, (∃ b ∈ blocks, w = .setVipRange (rangeKey ip proto b) serviceID) ∨
            ∃ b ∈ written ++ blocks, w = .deleteVipRange (rangeKey ip proto b)) ∧
          ∃ b ∈ blocks, env.Fails (.setVipRange (rangeKey ip proto b) serviceID))) := by
  induction blocks generalizing written s with
  | nil => exact ⟨s, [], rfl, by simp [Logged], Or.inl ⟨rfl, rfl⟩⟩
  | cons b rest ih =>
    simp only [rangeMapWriteFrom, Effect.bind_apply, Effect.outcome]
    rcases run₁ : write (.setVipRange (rangeKey ip proto b) serviceID) env s with ⟨e | u, s₁⟩
    · -- The block fails: those already in are deleted again.
      obtain ⟨fails, plane₁, logged₁⟩ := write_error run₁
      have failed := fails rfl
      dsimp only
      by_cases supported : s₁.plane.hasRangeMap ip = true
      · obtain ⟨s', ws, run, plane, logged, sub, _⟩ := deleteBlocks_run ip proto written env s₁
        refine ⟨s', ws, plane.trans plane₁, logged₁.trans logged,
          Or.inr ⟨⟨e.wrap "update vip_range_map: ", ?_⟩, ?_, ?_⟩⟩
        · simp only [rangeMapDeleteBlocks, Effect.bind_apply, getPlane_apply, if_pos supported, run,
            Effect.fail_apply]
        · intro w member
          obtain ⟨b', listed, rfl⟩ := List.mem_map.mp (sub.mem member)
          exact Or.inr ⟨b', List.mem_append_left _ listed, rfl⟩
        · exact ⟨b, List.mem_cons_self, failed⟩
      · refine ⟨s₁, [], plane₁, logged₁, Or.inr ⟨⟨e.wrap "update vip_range_map: ", ?_⟩, ?_, ?_⟩⟩
        · simp only [rangeMapDeleteBlocks, Effect.bind_apply, getPlane_apply, if_neg supported,
            Effect.pure_apply, Effect.fail_apply]
        · intro w member
          cases member
        · exact ⟨b, List.mem_cons_self, failed⟩
    · obtain ⟨_, plane₁, logged₁⟩ := write_ok run₁
      obtain ⟨s', ws, plane, logged, outcome⟩ := ih (written ++ [b]) s₁
      refine ⟨s', .setVipRange (rangeKey ip proto b) serviceID :: ws, plane.trans plane₁,
        logged₁.trans logged, ?_⟩
      dsimp only
      rcases outcome with ⟨run, rfl⟩ | ⟨failed, kinds, b', member, fails⟩
      · exact Or.inl ⟨run, rfl⟩
      · refine Or.inr ⟨failed, ?_, b', List.mem_cons_of_mem b member, fails⟩
        intro w member'
        rcases List.mem_cons.mp member' with rfl | later
        · exact Or.inl ⟨b, List.mem_cons_self, rfl⟩
        · rcases kinds w later with ⟨b₁, listed, rfl⟩ | ⟨b₁, listed, rfl⟩
          · exact Or.inl ⟨b₁, List.mem_cons_of_mem b listed, rfl⟩
          · refine Or.inr ⟨b₁, ?_, rfl⟩
            simpa using listed

theorem vipMapWrite_run (vip : VIP) (serviceID : Nat) (env : Env) (s : World) :
    ∃ s' ws, s'.plane = s.plane ∧ Logged s s' ws ∧
      ((∃ ip, vipMapWrite vip serviceID env s = (.ok (), s') ∧ parseIP vip.address = some ip ∧
          (vip.isRange = true → s.plane.hasRangeMap ip = true) ∧ ws = vipWrites vip ip serviceID) ∨
        ((∃ e, vipMapWrite vip serviceID env s = (.error e, s')) ∧
          (∀ w ∈ ws, ∃ ip, parseIP vip.address = some ip ∧
            (w ∈ vipWrites vip ip serviceID ∨ w ∈ vipDeletes vip ip)) ∧
          (parseIP vip.address = none ∨
            (∃ ip, parseIP vip.address = some ip ∧ vip.isRange = true ∧
              s.plane.hasRangeMap ip = false) ∨
            ∃ ip w, parseIP vip.address = some ip ∧ w ∈ vipWrites vip ip serviceID ∧
              env.Fails w))) := by
  unfold vipMapWrite
  cases parsed : parseIP vip.address with
  | none => exact ⟨s, [], rfl, by simp [Logged], Or.inr ⟨⟨_, rfl⟩, by simp, Or.inl rfl⟩⟩
  | some ip =>
    dsimp only
    by_cases range : vip.isRange = true
    · simp only [if_pos range, rangeMapWrite, Effect.bind_apply, getPlane_apply]
      cases supported : s.plane.hasRangeMap ip with
      | false =>
        exact ⟨s, [], rfl, by simp [Logged], Or.inr ⟨⟨_, rfl⟩, by simp,
          Or.inr (Or.inl ⟨ip, rfl, range, supported⟩)⟩⟩
      | true =>
        obtain ⟨s', ws, plane, logged, outcome⟩ := rangeMapWriteFrom_run ip (protoByte vip.protocol)
          serviceID (rangeBlocks vip.port vip.portEnd) [] env s
        simp only [Bool.not_true, Bool.false_eq_true, if_false]
        refine ⟨s', ws, plane, logged, ?_⟩
        rcases outcome with ⟨run, all⟩ | ⟨failed, kinds, b, member, fails⟩
        · refine Or.inl ⟨ip, run, rfl, fun _ => supported, ?_⟩
          rw [vipWrites, if_pos range, all]
        · refine Or.inr ⟨failed, ?_, Or.inr (Or.inr ⟨ip, _, rfl, ?_, fails⟩)⟩
          · intro w listed
            refine ⟨ip, rfl, ?_⟩
            rw [vipWrites, vipDeletes, if_pos range, if_pos range]
            rcases kinds w listed with ⟨b₁, inside, rfl⟩ | ⟨b₁, inside, rfl⟩
            · exact Or.inl (List.mem_map.mpr ⟨b₁, inside, rfl⟩)
            · exact Or.inr (List.mem_map.mpr ⟨b₁, by simpa using inside, rfl⟩)
          · rw [vipWrites, if_pos range]
            exact List.mem_map.mpr ⟨b, member, rfl⟩
    · simp only [if_neg range]
      obtain ⟨s', plane, outcome⟩ := wrapped_write_run
        (if ip.toAddr.isV4 then "update vip_map: " else "update vip_map6: ")
        (.setVip (vipKey ip vip) serviceID) rfl env s
      rcases outcome with ⟨run, logged⟩ | ⟨fails, failed, logged⟩
      · refine ⟨s', _, plane, logged, Or.inl ⟨ip, run, rfl, fun absurd_range => ?_, ?_⟩⟩
        · exact absurd absurd_range range
        · rw [vipWrites, if_neg range]
      · refine ⟨s', [], plane, logged, Or.inr ⟨failed, by simp, Or.inr (Or.inr ⟨ip, _, rfl, ?_, fails⟩)⟩⟩
        rw [vipWrites, if_neg range]
        exact List.mem_singleton.mpr rfl

theorem vipMapDelete_run (vip : VIP) (env : Env) (s : World) :
    ∃ s' ws, Effect.ignoring (vipMapDelete vip) env s = (.ok (), s') ∧ s'.plane = s.plane ∧
      Logged s s' ws ∧
      (∀ w ∈ ws, ∃ ip, parseIP vip.address = some ip ∧ w ∈ vipDeletes vip ip) ∧
      (env.Reliable → ∀ ip, parseIP vip.address = some ip →
        (vip.isRange = true → s.plane.hasRangeMap ip = true) → ws = vipDeletes vip ip) := by
  unfold vipMapDelete
  cases parsed : parseIP vip.address with
  | none =>
    refine ⟨s, [], rfl, rfl, by simp [Logged], ?_, ?_⟩
    · intro w member
      cases member
    · rintro _ ip ⟨⟩
  | some ip =>
    dsimp only
    by_cases range : vip.isRange = true
    · simp only [if_pos range]
      cases supported : s.plane.hasRangeMap ip with
      | false =>
        refine ⟨s, [], ?_, rfl, by simp [Logged], ?_, ?_⟩
        · simp [Effect.ignoring, rangeMapDeleteBlocks, Effect.bind_apply, supported]
        · intro w member
          cases member
        · rintro _ ip' ⟨⟩ needs
          rw [supported] at needs
          cases needs range
      | true =>
        obtain ⟨s', ws, run, plane, logged, sub, all⟩ := deleteBlocks_run ip
          (protoByte vip.protocol) (rangeBlocks vip.port vip.portEnd) env s
        refine ⟨s', ws, ?_, plane, logged, ?_, ?_⟩
        · simp only [Effect.ignoring, rangeMapDeleteBlocks, Effect.bind_apply, getPlane_apply,
            supported, if_true, run]
        · intro w member
          refine ⟨ip, rfl, ?_⟩
          rw [vipDeletes, if_pos range]
          exact sub.mem member
        · rintro reliable ip' ⟨⟩ _
          rw [vipDeletes, if_pos range, all reliable]
    · simp only [if_neg range]
      obtain ⟨s', ws, run, plane, logged, outcome⟩ :=
        ignoring_write (.deleteVip (vipKey ip vip)) env s
      refine ⟨s', ws, run, plane, logged, ?_, ?_⟩
      · intro w member
        refine ⟨ip, rfl, ?_⟩
        rw [vipDeletes, if_neg range]
        rcases outcome with rfl | ⟨rfl, _⟩
        · exact member
        · cases member
      · rintro reliable ip' ⟨⟩ _
        rw [vipDeletes, if_neg range]
        rcases outcome with same | ⟨_, fails⟩
        · exact same
        · exact absurd (fails rfl) (reliable _)

/-- The write of a service's own limit, where the datapath has the map. -/
def limitWrites (p : Dataplane) (serviceID : Nat) (rl : VIPRateLimit) : List MapWrite :=
  if p.dp.svcRlConfig then [.setSvcRl serviceID (rateLimitEntry p.numCPU rl)] else []

theorem limitWrites_congr {p q : Dataplane} (dp : q.dp = p.dp) (cpus : q.numCPU = p.numCPU)
    (serviceID : Nat) (rl : VIPRateLimit) :
    limitWrites q serviceID rl = limitWrites p serviceID rl := by
  unfold limitWrites
  rw [dp, cpus]

theorem hasRangeMap_congr {p q : Dataplane} (dp : q.dp = p.dp) (ip : IP) :
    q.hasRangeMap ip = p.hasRangeMap ip := by
  unfold Dataplane.hasRangeMap
  rw [dp]

theorem VIP.Programmable.congr {p q : Dataplane} {vip : VIP} {ip : IP}
    (able : vip.Programmable p ip) (dp : q.dp = p.dp) : vip.Programmable q ip :=
  ⟨dp ▸ able.limit, able.address, fun range => hasRangeMap_congr dp ip ▸ able.range range⟩

theorem applyServiceRateLimit_run {serviceID : Nat} (inside : serviceID < maxVIPs)
    (rl : VIPRateLimit) (env : Env) (s : World) :
    ∃ s' ws, s'.plane = s.plane ∧ Logged s s' ws ∧
      ((applyServiceRateLimit serviceID rl env s = (.ok (), s') ∧
          (s.plane.dp.svcRlConfig = false → rl.set = false) ∧
          ws = limitWrites s.plane serviceID rl) ∨
        ((∃ e, applyServiceRateLimit serviceID rl env s = (.error e, s')) ∧ ws = [] ∧
          ((s.plane.dp.svcRlConfig = false ∧ rl.set = true) ∨
            ∃ w ∈ limitWrites s.plane serviceID rl, env.Fails w))) := by
  unfold applyServiceRateLimit limitWrites
  simp only [Effect.bind_apply, getPlane_apply]
  cases supported : s.plane.dp.svcRlConfig with
  | false =>
    cases limited : rl.set with
    | false => exact ⟨s, [], rfl, by simp [Logged], Or.inl ⟨rfl, fun _ => rfl, rfl⟩⟩
    | true => exact ⟨s, [], rfl, by simp [Logged], Or.inr ⟨⟨_, rfl⟩, rfl, Or.inl ⟨rfl, rfl⟩⟩⟩
  | true =>
    simp only [Bool.not_true, Bool.false_eq_true, if_false, if_true]
    obtain ⟨s', plane, outcome⟩ := wrapped_write_run
      ("update svc_rl_config_map[" ++ toString serviceID ++ "]: ")
      (.setSvcRl serviceID (rateLimitEntry s.plane.numCPU rl))
      (by simpa [MapWrite.inBounds] using inside) env s
    rcases outcome with ⟨run, logged⟩ | ⟨fails, failed, logged⟩
    · refine ⟨s', _, plane, logged, Or.inl ⟨run, ?_, rfl⟩⟩
      intro unsupported
      cases unsupported
    · exact ⟨s', [], plane, logged, Or.inr ⟨failed, rfl, Or.inr ⟨_, List.mem_singleton.mpr rfl, fails⟩⟩⟩

/-- The write of a VIP's forwarding parameters. -/
def configWrite (entry : ServiceEntry) (vip : VIP) : MapWrite :=
  .setServiceConfig entry.serviceID (serviceConfigOf entry vip)

/-- The writes behind a VIP's forwarding parameters: its limit and its keys. -/
def keyWrites (p : Dataplane) (entry : ServiceEntry) (vip : VIP) (ip : IP) : List MapWrite :=
  limitWrites p entry.serviceID vip.rateLimit ++ vipWrites vip ip entry.serviceID

/-- A write to a VIP's limit or to one of its keys. -/
def KeyWrite (p : Dataplane) (serviceID : Nat) (vip : VIP) (w : MapWrite) : Prop :=
  w ∈ limitWrites p serviceID vip.rateLimit ∨
    ∃ ip, parseIP vip.address = some ip ∧ (w ∈ vipWrites vip ip serviceID ∨ w ∈ vipDeletes vip ip)

/-- How programming a VIP's service can stop: at the parameters, or behind them. -/
inductive ProgramStopped (env : Env) (entry : ServiceEntry) (vip : VIP) (s s' : World) : Prop
  | config (logged : Logged s s' []) (reason : env.Fails (configWrite entry vip))
  | keys {ws : List MapWrite} (logged : Logged s s' (configWrite entry vip :: ws))
    (kinds : ∀ w ∈ ws, KeyWrite s.plane entry.serviceID vip w)
    (reason : (∀ ip, ¬ vip.Programmable s.plane ip) ∨
      ∃ w, env.Fails w ∧ ∃ ip, parseIP vip.address = some ip ∧ w ∈ keyWrites s.plane entry vip ip)

theorem programService_run {key : String} {s : World} {entry : ServiceEntry}
    (found : s.plane.services.get? key = some entry) (inside : entry.serviceID < maxVIPs) (vip : VIP)
    (env : Env) :
    (∃ ip s', programService key vip env s = (.ok (), s') ∧ vip.Programmable s.plane ip ∧
      s'.plane = s.plane ∧ Logged s s' (configWrite entry vip :: keyWrites s.plane entry vip ip)) ∨
    ∃ e s', programService key vip env s = (.error e, s') ∧ s'.plane = s.plane ∧
      ProgramStopped env entry vip s s' := by
  unfold programService
  simp only [Effect.bind_apply, getEntry_run found]
  obtain ⟨s₁, plane₁, ⟨run₁, logged₁⟩ | ⟨fails, ⟨e, run₁⟩, logged₁⟩⟩ := wrapped_write_run
    "update service_config_map: " (configWrite entry vip)
    (by simpa [MapWrite.inBounds, configWrite] using inside) env s
  · rw [show Effect.mapError _ (write (.setServiceConfig entry.serviceID (serviceConfigOf entry vip)))
      env s = (.ok (), s₁) from run₁]
    dsimp only
    obtain ⟨s₂, ws₂, plane₂, logged₂, outcome₂⟩ :=
      applyServiceRateLimit_run inside vip.rateLimit env s₁
    rw [plane₁] at outcome₂
    rcases outcome₂ with ⟨run₂, limit, rfl⟩ | ⟨⟨e, run₂⟩, rfl, reason⟩
    · rw [Effect.mapError_eq_ok.mpr run₂]
      dsimp only
      obtain ⟨s₃, ws₃, plane₃, logged₃, outcome₃⟩ := vipMapWrite_run vip entry.serviceID env s₂
      have plane : s₃.plane = s.plane := plane₃.trans (plane₂.trans plane₁)
      rw [plane₂, plane₁] at outcome₃
      have logged : Logged s s₃
          (configWrite entry vip :: (limitWrites s.plane entry.serviceID vip.rateLimit ++ ws₃)) := by
        have := (logged₁.trans logged₂).trans logged₃
        simpa using this
      rcases outcome₃ with ⟨ip, run₃, parsed, range, rfl⟩ | ⟨⟨e, run₃⟩, kinds, reason⟩
      · rw [Effect.mapError_eq_ok.mpr run₃]
        exact Or.inl ⟨ip, s₃, rfl, ⟨limit, parsed, range⟩, plane, logged⟩
      · simp only [Effect.mapError, run₃]
        refine Or.inr ⟨_, s₃, rfl, plane, .keys logged ?_ ?_⟩
        · intro w member
          rcases List.mem_append.mp member with early | late
          · exact Or.inl early
          · exact Or.inr (kinds w late)
        · rcases reason with bad | ⟨ip, parsed, range, unsupported⟩ | ⟨ip, w, parsed, listed, fails⟩
          · refine Or.inl fun ip able => ?_
            rw [able.address] at bad
            cases bad
          · refine Or.inl fun ip' able => ?_
            rw [able.address] at parsed
            cases parsed
            rw [able.range range] at unsupported
            cases unsupported
          · exact Or.inr ⟨w, fails, ip, parsed, List.mem_append_right _ listed⟩
    · simp only [Effect.mapError, run₂]
      have logged : Logged s s₂ [configWrite entry vip] := by
        have := logged₁.trans logged₂
        simpa using this
      refine Or.inr ⟨_, s₂, rfl, plane₂.trans plane₁, .keys logged ?_ ?_⟩
      · intro w member
        cases member
      · rcases reason with ⟨unsupported, limited⟩ | ⟨w, listed, fails⟩
        · refine Or.inl fun ip able => ?_
          rw [able.limit unsupported] at limited
          cases limited
        · cases parsed : parseIP vip.address with
          | none =>
            refine Or.inl fun ip able => ?_
            rw [able.address] at parsed
            cases parsed
          | some ip => exact Or.inr ⟨w, fails, ip, rfl, List.mem_append_left _ listed⟩
  · rw [show Effect.mapError _ (write (.setServiceConfig entry.serviceID (serviceConfigOf entry vip)))
      env s = (.error e, s₁) from run₁]
    exact Or.inr ⟨e, s₁, rfl, plane₁, .config logged₁ fails⟩

end Rivora
