import EspCsi.Wifi.Dhcp

/-!
# Traffic targets

Whom an access point and a station send their traffic to. The registry of active leases and the
signal that carries a station's configuration are statics: neither is cleared between runs, while the
table of the DHCP server and the network stack are made anew for each.
-/

namespace EspCsi.Wifi

open Wire SlotTable Transition

/-! ## The registry of active leases -/

/-- `ips.iter().take(count)`. -/
structure ActiveLeaseRegistry where
  ips : List Ipv4Addr := []
  length_le : ips.length ≤ MAX_DHCP_CLIENTS := by decide

namespace ActiveLeaseRegistry

def register (r : ActiveLeaseRegistry) (ip : Ipv4Addr) : ActiveLeaseRegistry :=
  if ip ∈ r.ips then r
  else if h : r.ips.length < MAX_DHCP_CLIENTS then
    { ips := r.ips ++ [ip]
      length_le := by
        rw [List.length_append, List.length_singleton]
        exact h }
  else r

def snapshot (r : ActiveLeaseRegistry) : List Ipv4Addr := r.ips

theorem register_mem {r : ActiveLeaseRegistry} {ip : Ipv4Addr} (h : ip ∈ r.ips) :
    r.register ip = r := if_pos h

theorem register_new {r : ActiveLeaseRegistry} {ip : Ipv4Addr} (h : ip ∉ r.ips)
    (hroom : r.ips.length < MAX_DHCP_CLIENTS) : (r.register ip).ips = r.ips ++ [ip] := by
  rw [register, if_neg h, dif_pos hroom]

end ActiveLeaseRegistry

/-! ## Runs of the process -/

/-- A network configuration as the stack holds it. -/
structure StaticConfigV4 where
  address : Ipv4Addr
  gateway : Option Ipv4Addr
  deriving DecidableEq, Repr

structure IpInfo where
  localAddress : Ipv4Addr
  gatewayAddress : Ipv4Addr
  deriving DecidableEq, Repr

def StaticConfigV4.ipInfo (config : StaticConfigV4) : IpInfo where
  localAddress := config.address
  gatewayAddress := config.gateway.getD Ipv4Addr.UNSPECIFIED

/-- Where `run_dhcp_client` stands. -/
inductive ClientPhase where
  | waitLinkUp
  | waitConfigUp
  | readConfig
  | watchLink
  deriving DecidableEq, Repr

/-- A station run: its stack, its tasks, and every configuration its stack has had. The tasks are
joined once the first association has come about. -/
structure Station where
  txEnabled : Bool
  joined : Bool := false
  linkUp : Bool := false
  configV4 : Option StaticConfigV4 := none
  dhcpClient : ClientPhase := .waitLinkUp
  flood : Option IpInfo := none
  acquired : List StaticConfigV4 := []

inductive Role where
  | idle
  | accessPoint (config : WifiApConfig) (server : DhcpServer)
  | station (n : Station)

/-- The statics and the run under way. `inherited` records that the signal still holds what an
earlier run put there. -/
structure Process where
  activeLeases : ActiveLeaseRegistry := {}
  dhcpClientInfo : Option IpInfo := none
  inherited : Bool := false
  role : Role := .idle

inductive Event where
  | runAccessPoint (config : WifiApConfig)
  | runStation (txEnabled : Bool)
  | stop
  | dhcpRequest (req : DhcpRequest)
  | connected
  | link (up : Bool)
  | config (config : Option StaticConfigV4)
  | pollDhcpClient
  | pollNetworkOps

namespace Process

/-- `run_dhcp_server` answers a request and registers the address. -/
def dhcpRequest (s : Process) (config : WifiApConfig) (server : DhcpServer) (req : DhcpRequest) :
    Process :=
  { s with
    activeLeases := match server.yourIp config req with
      | some ip => s.activeLeases.register ip
      | none => s.activeLeases
    role := .accessPoint config (server.serve config req) }

/-- One await of `run_dhcp_client`. -/
def pollDhcpClient (s : Process) (n : Station) : Process :=
  match n.dhcpClient with
  | .waitLinkUp =>
    if n.linkUp then { s with role := .station { n with dhcpClient := .waitConfigUp } } else s
  | .waitConfigUp =>
    if n.configV4.isSome then { s with role := .station { n with dhcpClient := .readConfig } }
    else s
  | .readConfig =>
    match n.configV4 with
    | some config =>
      { s with
        dhcpClientInfo := some config.ipInfo
        inherited := false
        role := .station { n with dhcpClient := .watchLink } }
    -- the configuration was lost since; the task tries again after a while
    | none => s
  | .watchLink =>
    if n.linkUp then s else { s with role := .station { n with dhcpClient := .waitLinkUp } }

/-- `sta_network_ops`, and the flood it turns into, take the signal whenever it is set. -/
def pollNetworkOps (s : Process) (n : Station) : Process :=
  match s.dhcpClientInfo with
  | some info =>
    { s with
      dhcpClientInfo := none
      inherited := false
      role := .station { n with flood := some info } }
  | none => s

def step (s : Process) (e : Event) : Process :=
  match s.role, e with
  | .idle, .runAccessPoint config => { s with role := .accessPoint config {} }
  | .idle, .runStation txEnabled =>
    { s with inherited := s.dhcpClientInfo.isSome, role := .station { txEnabled := txEnabled } }
  | .idle, _ => s
  | _, .stop => { s with role := .idle }
  | .accessPoint config server, .dhcpRequest req =>
    if config.serveDhcp then s.dhcpRequest config server req else s
  | .station n, .connected => { s with role := .station { n with joined := true } }
  -- nothing of the stack runs before the first association
  | .station n, .link up =>
    if n.joined then { s with role := .station { n with linkUp := up } } else s
  | .station n, .config config =>
    if n.joined then
      { s with
        role := .station { n with configV4 := config, acquired := config.toList ++ n.acquired } }
    else s
  | .station n, .pollDhcpClient => if n.joined then s.pollDhcpClient n else s
  | .station n, .pollNetworkOps => if n.joined && n.txEnabled then s.pollNetworkOps n else s
  | _, _ => s

/-! ## The law -/

/-- What the traffic goes to belongs to the run under way: an access point's destinations are the
addresses that its server has bound, and a station's source and gateway are those of a configuration
its stack has had. -/
def OwnTargets (s : Process) : Prop :=
  match s.role with
  | .idle => True
  | .accessPoint _ server =>
    ∀ ip, ip ∈ s.activeLeases.snapshot ↔ ∃ c, some c ∈ server.clients ∧ c.ip = ip
  | .station n => ∀ info, n.flood = some info → ∃ config ∈ n.acquired, config.ipInfo = info

/-- A step on which nothing left over counts: an access point starts with no lease registered, and a
station's flood takes no configuration that an earlier run left in the signal, unless its own stack
has had the same. -/
def Unspoiled (s : Process) (e : Event) : Prop :=
  match s.role, e with
  | .idle, .runAccessPoint _ => s.activeLeases.ips = []
  | .station n, .pollNetworkOps =>
    (n.joined && n.txEnabled) = true → s.inherited = true →
      ∀ info, s.dhcpClientInfo = some info → ∃ config ∈ n.acquired, config.ipInfo = info
  | _, _ => True

/-- What holds of a run whose steps were all unspoiled. -/
def Clean (s : Process) : Prop :=
  match s.role with
  | .idle => True
  | .accessPoint config server => ∃ macs, DhcpServer.Serves config server macs ∧
      s.activeLeases.ips =
        (List.range macs.length).map fun i => config.leaseIpAt (UInt8.ofNat i)
  | .station n => (∀ config, n.configV4 = some config → config ∈ n.acquired) ∧
      (s.inherited = false → ∀ info, s.dhcpClientInfo = some info →
        ∃ config ∈ n.acquired, config.ipInfo = info)

variable {s : Process} {n : Station} {config : WifiApConfig} {server : DhcpServer}

theorem own_of_served {macs : List Mac} (hrole : s.role = .accessPoint config server)
    (hserves : DhcpServer.Serves config server macs)
    (hips : s.activeLeases.ips =
      (List.range macs.length).map fun i => config.leaseIpAt (UInt8.ofNat i)) :
    OwnTargets s := by
  rw [OwnTargets, hrole]
  intro ip
  rw [hserves.clients, mem_table_ip, ActiveLeaseRegistry.snapshot, hips]
  simp only [List.mem_map, List.mem_range]

theorem clean_dhcpRequest {macs : List Mac} (hserves : DhcpServer.Serves config server macs)
    (hips : s.activeLeases.ips =
      (List.range macs.length).map fun i => config.leaseIpAt (UInt8.ofNat i))
    (req : DhcpRequest) : Clean (s.dhcpRequest config server req) := by
  rcases DhcpServer.serve_cases hserves req with ⟨hip, hs⟩ | ⟨i, hi, hip, hs⟩ | ⟨hlt, hip, hs⟩
  · refine ⟨macs, hs, ?_⟩
    rw [dhcpRequest, hip]
    exact hips
  · refine ⟨macs, hs, ?_⟩
    have hmem : config.leaseIpAt (UInt8.ofNat i) ∈ s.activeLeases.ips := by
      rw [hips]
      exact List.mem_map.mpr ⟨i, List.mem_range.mpr hi, rfl⟩
    rw [dhcpRequest, hip]
    show (s.activeLeases.register _).ips = _
    rw [ActiveLeaseRegistry.register_mem hmem, hips]
  · refine ⟨_, hs, ?_⟩
    have hnew : config.leaseIpAt (UInt8.ofNat macs.length) ∉ s.activeLeases.ips := by
      rw [hips]
      intro hmem
      obtain ⟨i, hi, heq⟩ := List.mem_map.mp hmem
      have hi := List.mem_range.mp hi
      exact absurd (WifiApConfig.leaseIpAt_injective (by omega) hlt heq) (by omega)
    have hroom : s.activeLeases.ips.length < MAX_DHCP_CLIENTS := by
      have hpool := config.distinct_le_poolSize
      have hclients := config.poolSize_le_clients
      rw [hips, List.length_map, List.length_range]
      omega
    rw [dhcpRequest, hip]
    show (s.activeLeases.register _).ips = _
    rw [ActiveLeaseRegistry.register_new hnew hroom, hips, List.length_append,
      List.length_singleton, List.range_succ, List.map_append]
    rfl

theorem pollDhcpClient_station (hrole : s.role = .station n) :
    ∃ n', (s.pollDhcpClient n).role = .station n' ∧ n'.acquired = n.acquired ∧
      n'.configV4 = n.configV4 ∧ n'.flood = n.flood ∧
      (((s.pollDhcpClient n).dhcpClientInfo = s.dhcpClientInfo ∧
          (s.pollDhcpClient n).inherited = s.inherited) ∨
        ∃ config, n.configV4 = some config ∧
          (s.pollDhcpClient n).dhcpClientInfo = some config.ipInfo) := by
  unfold pollDhcpClient
  cases n.dhcpClient with
  | waitLinkUp =>
    cases n.linkUp with
    | true => exact ⟨_, rfl, rfl, rfl, rfl, Or.inl ⟨rfl, rfl⟩⟩
    | false => exact ⟨n, hrole, rfl, rfl, rfl, Or.inl ⟨rfl, rfl⟩⟩
  | waitConfigUp =>
    cases n.configV4.isSome with
    | true => exact ⟨_, rfl, rfl, rfl, rfl, Or.inl ⟨rfl, rfl⟩⟩
    | false => exact ⟨n, hrole, rfl, rfl, rfl, Or.inl ⟨rfl, rfl⟩⟩
  | readConfig =>
    cases hconfig : n.configV4 with
    | some config => exact ⟨_, rfl, rfl, rfl, rfl, Or.inr ⟨config, rfl, rfl⟩⟩
    | none => exact ⟨n, hrole, rfl, hconfig, rfl, Or.inl ⟨rfl, rfl⟩⟩
  | watchLink =>
    cases n.linkUp with
    | true => exact ⟨n, hrole, rfl, rfl, rfl, Or.inl ⟨rfl, rfl⟩⟩
    | false => exact ⟨_, rfl, rfl, rfl, rfl, Or.inl ⟨rfl, rfl⟩⟩

/-! ### Steps -/

/-- A step keeps the law exactly when it is unspoiled, and an unspoiled one keeps the run clean. -/
def Keeps (s : Process) (e : Event) : Prop :=
  (OwnTargets (s.step e) ↔ Unspoiled s e) ∧ (Unspoiled s e → Clean (s.step e))

theorem keeps_of_eq {e : Event} (heq : s.step e = s) (hunspoiled : Unspoiled s e)
    (hclean : Clean s) (hown : OwnTargets s) : Keeps s e := by
  rw [Keeps, heq]
  exact ⟨⟨fun _ => hunspoiled, fun _ => hown⟩, fun _ => hclean⟩

theorem keeps_stop : Keeps s .stop := by
  cases hrole : s.role <;> simp [Keeps, step, hrole, Unspoiled, OwnTargets, Clean]

theorem keeps_idle (hrole : s.role = .idle) (e : Event) : Keeps s e := by
  have hown : OwnTargets s := by simp only [OwnTargets, hrole]
  have hclean : Clean s := by simp only [Clean, hrole]
  cases e with
  | runAccessPoint config =>
    have hstep : s.step (.runAccessPoint config) = { s with role := .accessPoint config {} } := by
      simp only [step, hrole]
    have hunspoiled : Unspoiled s (.runAccessPoint config) ↔ s.activeLeases.ips = [] := by
      simp only [Unspoiled, hrole]
    rw [Keeps, hstep, hunspoiled]
    have hclean : s.activeLeases.ips = [] →
        Clean { s with role := .accessPoint config {} } := fun hips =>
      ⟨[], DhcpServer.serves_start config, hips⟩
    refine ⟨⟨fun h => ?_, fun hips => ?_⟩, hclean⟩
    · -- nothing is bound yet, so a lease on record is one from an earlier run
      rw [List.eq_nil_iff_forall_not_mem]
      intro ip hip
      obtain ⟨c, hc, -⟩ := (h ip).mp hip
      exact absurd (List.eq_of_mem_replicate hc) (Option.some_ne_none c)
    · exact own_of_served rfl (DhcpServer.serves_start config) hips
  | runStation txEnabled =>
    have hstep : s.step (.runStation txEnabled) =
        { s with
          inherited := s.dhcpClientInfo.isSome
          role := .station { txEnabled := txEnabled } } := by
      simp only [step, hrole]
    have hunspoiled : Unspoiled s (.runStation txEnabled) := by simp only [Unspoiled, hrole]
    rw [Keeps, hstep]
    refine ⟨⟨fun _ => hunspoiled, fun _ info hinfo => absurd hinfo.symm (Option.some_ne_none _)⟩,
      fun _ => ⟨fun config hconfig => absurd hconfig.symm (Option.some_ne_none _), ?_⟩⟩
    intro hnone info hinfo
    rw [show s.dhcpClientInfo = some info from hinfo] at hnone
    exact absurd hnone.symm Bool.false_ne_true
  | stop => exact keeps_stop
  | dhcpRequest _ | connected | link _ | config _ | pollDhcpClient | pollNetworkOps =>
    exact keeps_of_eq (by simp only [step, hrole]) (by simp only [Unspoiled, hrole]) hclean hown

theorem keeps_accessPoint (hrole : s.role = .accessPoint config server) (hclean : Clean s)
    (hown : OwnTargets s) (e : Event) : Keeps s e := by
  cases e with
  | stop => exact keeps_stop
  | dhcpRequest req =>
    have hunspoiled : Unspoiled s (.dhcpRequest req) := by simp only [Unspoiled, hrole]
    cases hserve : config.serveDhcp with
    | false => exact keeps_of_eq (by simp [step, hrole, hserve]) hunspoiled hclean hown
    | true =>
      have hstep : s.step (.dhcpRequest req) = s.dhcpRequest config server req := by
        simp [step, hrole, hserve]
      simp only [Clean, hrole] at hclean
      obtain ⟨macs, hserves, hips⟩ := hclean
      obtain ⟨macs', hserves', hips'⟩ := clean_dhcpRequest hserves hips req
      rw [Keeps, hstep]
      exact ⟨⟨fun _ => hunspoiled, fun _ => own_of_served rfl hserves' hips'⟩,
        fun _ => ⟨macs', hserves', hips'⟩⟩
  | runAccessPoint _ | runStation _ | connected | link _ | config _ | pollDhcpClient
  | pollNetworkOps =>
    exact keeps_of_eq (by simp only [step, hrole]) (by simp only [Unspoiled, hrole]) hclean hown

structure StationClean (s : Process) (n : Station) : Prop where
  configV4 : ∀ config, n.configV4 = some config → config ∈ n.acquired
  signal : s.inherited = false → ∀ info, s.dhcpClientInfo = some info →
    ∃ config ∈ n.acquired, config.ipInfo = info
  flood : ∀ info, n.flood = some info → ∃ config ∈ n.acquired, config.ipInfo = info

theorem stationClean_iff (hrole : s.role = .station n) :
    Clean s ∧ OwnTargets s ↔ StationClean s n := by
  simp only [Clean, OwnTargets, hrole]
  constructor
  · rintro ⟨⟨hconfig, hsignal⟩, hflood⟩
    exact ⟨hconfig, hsignal, hflood⟩
  · rintro ⟨hconfig, hsignal, hflood⟩
    exact ⟨⟨hconfig, hsignal⟩, hflood⟩

theorem keeps_of_stationClean {e : Event} {n' : Station} (hunspoiled : Unspoiled s e)
    (hrole : (s.step e).role = .station n') (h : StationClean (s.step e) n') : Keeps s e := by
  obtain ⟨hclean, hown⟩ := (stationClean_iff hrole).mpr h
  exact ⟨⟨fun _ => hunspoiled, fun _ => hown⟩, fun _ => hclean⟩

theorem keeps_joined {e : Event} {s' : Process} {n' : Station} (hrole : s.role = .station n)
    (h : StationClean s n) (hunspoiled : Unspoiled s e)
    (hstep : s.step e = if n.joined then s' else s) (hrole' : s'.role = .station n')
    (h' : StationClean s' n') : Keeps s e := by
  obtain ⟨hclean, hown⟩ := (stationClean_iff hrole).mpr h
  cases hjoined : n.joined with
  | false =>
    rw [hjoined] at hstep
    exact keeps_of_eq hstep hunspoiled hclean hown
  | true =>
    rw [hjoined] at hstep
    have hafter : s.step e = s' := hstep
    apply keeps_of_stationClean hunspoiled (by rw [hafter, hrole'])
    rw [hafter]
    exact h'

theorem keeps_pollDhcpClient (hrole : s.role = .station n) (h : StationClean s n) :
    Keeps s .pollDhcpClient := by
  obtain ⟨n', hrole', hacquired, hconfig, hflood, hsignal⟩ := pollDhcpClient_station hrole
  apply keeps_joined hrole h (by simp only [Unspoiled, hrole]) (by simp only [step, hrole]) hrole'
  refine ⟨by rw [hacquired, hconfig]; exact h.configV4, ?_,
    by rw [hacquired, hflood]; exact h.flood⟩
  rw [hacquired]
  rcases hsignal with ⟨hinfo, hinherited⟩ | ⟨config, hsome, hinfo⟩
  · rw [hinfo, hinherited]
    exact h.signal
  · intro _ info hinfo'
    rw [hinfo] at hinfo'
    exact ⟨config, h.configV4 config hsome, Option.some.inj hinfo'⟩

theorem keeps_pollNetworkOps (hrole : s.role = .station n) (h : StationClean s n) :
    Keeps s .pollNetworkOps := by
  obtain ⟨hclean, hown⟩ := (stationClean_iff hrole).mpr h
  cases hruns : n.joined && n.txEnabled with
  | false =>
    exact keeps_of_eq (by simp [step, hrole, hruns]) (by simp [Unspoiled, hrole, hruns])
      hclean hown
  | true =>
    have hstep : s.step .pollNetworkOps = s.pollNetworkOps n := by
      simp only [step, hrole, hruns, if_true]
    have hunspoiled : Unspoiled s .pollNetworkOps ↔ (s.inherited = true →
        ∀ info, s.dhcpClientInfo = some info → ∃ config ∈ n.acquired, config.ipInfo = info) := by
      simp only [Unspoiled, hrole, hruns, true_imp_iff]
    cases hinfo : s.dhcpClientInfo with
    | none =>
      have hstill : s.pollNetworkOps n = s := by simp only [pollNetworkOps, hinfo]
      refine keeps_of_eq (hstep.trans hstill) (hunspoiled.mpr ?_) hclean hown
      intro _ info hsome
      exact absurd (hinfo.symm.trans hsome).symm (Option.some_ne_none info)
    | some info =>
      have htake : s.pollNetworkOps n =
          { s with
            dhcpClientInfo := none
            inherited := false
            role := .station { n with flood := some info } } := by
        simp only [pollNetworkOps, hinfo]
      -- what this run's own client published is one of its configurations already
      have hown' : OwnTargets (s.pollNetworkOps n) ↔ ∃ config ∈ n.acquired, config.ipInfo = info := by
        rw [htake]
        simp [OwnTargets]
      have hiff : OwnTargets (s.pollNetworkOps n) ↔ Unspoiled s .pollNetworkOps := by
        rw [hown', hunspoiled]
        constructor
        · intro hsome _ info' hinfo'
          rw [← Option.some.inj (hinfo.symm.trans hinfo')]
          exact hsome
        · intro hsome
          cases hinherited : s.inherited with
          | true => exact hsome hinherited info hinfo
          | false => exact h.signal hinherited info hinfo
      rw [Keeps, hstep, htake]
      rw [htake] at hiff
      refine ⟨hiff, fun _ => ⟨h.configV4, ?_⟩⟩
      intro _ info' hnone
      exact absurd hnone.symm (Option.some_ne_none info')

theorem keeps_station (hrole : s.role = .station n) (h : StationClean s n) (e : Event) :
    Keeps s e := by
  obtain ⟨hclean, hown⟩ := (stationClean_iff hrole).mpr h
  cases e with
  | stop => exact keeps_stop
  | connected =>
    have hstep : s.step .connected = { s with role := .station { n with joined := true } } := by
      simp only [step, hrole]
    apply keeps_of_stationClean (by simp only [Unspoiled, hrole]) (by rw [hstep])
    rw [hstep]
    exact ⟨h.configV4, h.signal, h.flood⟩
  | link up =>
    have hstep : s.step (.link up) =
        if n.joined then { s with role := .station { n with linkUp := up } } else s := by
      simp only [step, hrole]
    exact keeps_joined hrole h (by simp only [Unspoiled, hrole]) hstep rfl
      ⟨h.configV4, h.signal, h.flood⟩
  | config config =>
    have hstep : s.step (.config config) =
        if n.joined then
          { s with
            role := .station
              { n with configV4 := config, acquired := config.toList ++ n.acquired } }
        else s := by
      simp only [step, hrole]
    apply keeps_joined hrole h (by simp only [Unspoiled, hrole]) hstep rfl
    have hmore : ∀ {info : IpInfo}, (∃ config ∈ n.acquired, config.ipInfo = info) →
        ∃ c ∈ config.toList ++ n.acquired, c.ipInfo = info := by
      rintro info ⟨c, hc, hinfo⟩
      exact ⟨c, List.mem_append_right _ hc, hinfo⟩
    refine ⟨?_, fun hown info hinfo => hmore (h.signal hown info hinfo),
      fun info hinfo => hmore (h.flood info hinfo)⟩
    intro c hc
    exact List.mem_append_left _ (Option.mem_toList.mpr hc)
  | pollDhcpClient => exact keeps_pollDhcpClient hrole h
  | pollNetworkOps => exact keeps_pollNetworkOps hrole h
  | runAccessPoint _ | runStation _ | dhcpRequest _ =>
    exact keeps_of_eq (by simp only [step, hrole]) (by simp only [Unspoiled, hrole]) hclean hown

theorem keeps (hclean : Clean s) (hown : OwnTargets s) (e : Event) : Keeps s e := by
  cases hrole : s.role with
  | idle => exact keeps_idle hrole e
  | accessPoint config server => exact keeps_accessPoint hrole hclean hown e
  | station n => exact keeps_station hrole ((stationClean_iff hrole).mp ⟨hclean, hown⟩) e

/-- Traffic goes to the run's own targets throughout exactly when no step is spoiled by what an
earlier run left. -/
theorem ownTargets_iff_unspoiled (es : List Event) :
    Always step OwnTargets {} es ↔ Along step Unspoiled {} es := by
  have hclean : Clean {} := trivial
  have hown : OwnTargets {} := trivial
  apply always_iff_along (H := fun _ _ => True) (I := Clean) (fun _ _ _ => trivial) hclean hown
  · intro s e hclean hown _
    exact (keeps hclean hown e).1
  · intro s e hclean hown _ hunspoiled
    exact (keeps hclean hown e).2 hunspoiled

def asks (n : UInt8) : Event := .dhcpRequest ⟨.discover, 0, ⟨2, 0, 0, 0, 0, n⟩⟩

/-- The second access point starts with the lease of the first on record; and the station run that
transmits floods the gateway that a run before it acquired and did not use. -/
theorem targets_leak :
    ¬ (∀ es, Always step OwnTargets {} es) ∧
      ∃ es n info, (run step {} es).role = .station n ∧ n.flood = some info ∧ n.acquired = [] := by
  constructor
  · intro h
    have hlast := (h [.runAccessPoint {}, asks 1, .stop, .runAccessPoint {}]).last
    obtain ⟨c, hc, -⟩ := (hlast ⟨192, 168, 13, 2⟩).mp (by decide +kernel)
    exact absurd (List.eq_of_mem_replicate hc) (Option.some_ne_none c)
  · exact ⟨[.runStation false, .connected, .link true,
      .config (some ⟨⟨10, 0, 0, 9⟩, some ⟨10, 0, 0, 1⟩⟩), .pollDhcpClient, .pollDhcpClient,
      .pollDhcpClient, .stop, .runStation true, .connected, .pollNetworkOps], _,
      ⟨⟨10, 0, 0, 9⟩, ⟨10, 0, 0, 1⟩⟩, rfl, rfl, rfl⟩

end Process

end EspCsi.Wifi
