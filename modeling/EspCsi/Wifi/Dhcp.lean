import Mathlib.Data.Finset.Card
import Mathlib.Data.List.Dedup
import EspCsi.Lib.SlotTable
import EspCsi.Lib.Transition
import EspCsi.Wire.Types

/-!
# The access point's DHCP server

Leases are counted up from `leaseIpv4` in the last octet, which saturates. The server binds them to
clients in the order they ask, in a table of eight slots that is never cleared during a run, so the
state of the table is the list of the clients bound so far.
-/

namespace EspCsi.Wifi

open Wire SlotTable Transition

/-! ## Configuration -/

structure Ipv4Addr where
  a : UInt8
  b : UInt8
  c : UInt8
  d : UInt8
  deriving DecidableEq, Repr

namespace Ipv4Addr

def UNSPECIFIED : Ipv4Addr := ⟨0, 0, 0, 0⟩

/-- Two addresses in a common /24. -/
def SameNet (ip ip' : Ipv4Addr) : Prop := ip.a = ip'.a ∧ ip.b = ip'.b ∧ ip.c = ip'.c

/-- The broadcast address of the /24 that `ip` is in. -/
def broadcast (ip : Ipv4Addr) : Ipv4Addr := { ip with d := 255 }

/-- An address of a /24 that a host may have. -/
def IsHost (ip : Ipv4Addr) : Prop := ip.d ≠ 0 ∧ ip.d ≠ 255

instance (ip : Ipv4Addr) : Decidable ip.IsHost := inferInstanceAs (Decidable (_ ∧ _))

end Ipv4Addr

def saturatingAdd (x y : UInt8) : UInt8 := if x.toNat + y.toNat ≤ 255 then x + y else 255

theorem toNat_saturatingAdd (x y : UInt8) :
    (saturatingAdd x y).toNat = min (x.toNat + y.toNat) 255 := by
  unfold saturatingAdd
  split
  case isTrue h =>
    rw [UInt8.toNat_add, Nat.mod_eq_of_lt (by omega), Nat.min_eq_left h]
  case isFalse h =>
    rw [Nat.min_eq_right (by omega)]
    rfl

def MAX_DHCP_CLIENTS : ℕ := 8

structure WifiApConfig where
  apIpv4 : Ipv4Addr := ⟨192, 168, 13, 1⟩
  leaseIpv4 : Ipv4Addr := ⟨192, 168, 13, 2⟩
  leaseCount : UInt8 := 1
  serveDhcp : Bool := true
  syncBurst : Bool := false

namespace WifiApConfig

def withIpv4 (config : WifiApConfig) (ap lease : Ipv4Addr) : WifiApConfig :=
  { config with apIpv4 := ap, leaseIpv4 := lease }

def withLeasePool (config : WifiApConfig) (count : UInt8) : WifiApConfig :=
  { config with leaseCount := if count < 1 then 1 else count }

/-- The last octet alone moves with the index, and it saturates. -/
def leaseIpAt (config : WifiApConfig) (index : UInt8) : Ipv4Addr :=
  let last := if config.leaseCount = 0 then 0 else config.leaseCount - 1
  let idx := if index < last then index else last
  { config.leaseIpv4 with d := saturatingAdd config.leaseIpv4.d idx }

/-- `lease_count.min(MAX_DHCP_CLIENTS)`. -/
def poolSize (config : WifiApConfig) : ℕ := min config.leaseCount.toNat MAX_DHCP_CLIENTS

def leasePool (config : WifiApConfig) : List Ipv4Addr :=
  (List.range config.poolSize).map fun i => config.leaseIpAt (UInt8.ofNat i)

/-- How many distinct addresses the pool has. -/
def distinct (config : WifiApConfig) : ℕ := min config.poolSize (256 - config.leaseIpv4.d.toNat)

variable {config : WifiApConfig} {i j : ℕ}

theorem poolSize_le_count : config.poolSize ≤ config.leaseCount.toNat := Nat.min_le_left _ _

theorem poolSize_le_clients : config.poolSize ≤ MAX_DHCP_CLIENTS := Nat.min_le_right _ _

theorem distinct_le_poolSize : config.distinct ≤ config.poolSize := Nat.min_le_left _ _

theorem leaseIpAt_d (hi : i < config.poolSize) :
    (config.leaseIpAt (UInt8.ofNat i)).d.toNat = min (config.leaseIpv4.d.toNat + i) 255 := by
  have hcount := lt_of_lt_of_le hi poolSize_le_count
  have hbound : config.leaseCount.toNat < 256 := config.leaseCount.toNat_lt
  have hofNat : (UInt8.ofNat i).toNat = i := by
    rw [UInt8.toNat_ofNat', Nat.mod_eq_of_lt (by omega)]
  have hne : config.leaseCount ≠ 0 := by
    intro h
    rw [h] at hcount
    exact absurd hcount (Nat.not_lt_zero i)
  have hlast : (config.leaseCount - 1).toNat = config.leaseCount.toNat - 1 := by
    apply UInt8.toNat_sub_of_le
    rw [UInt8.le_iff_toNat_le]
    exact Nat.one_le_of_lt hcount
  have hidx : (if UInt8.ofNat i < config.leaseCount - 1 then UInt8.ofNat i
      else config.leaseCount - 1).toNat = i := by
    split
    case isTrue h => exact hofNat
    case isFalse h =>
      rw [UInt8.lt_iff_toNat_lt, hofNat, hlast] at h
      omega
  simp only [leaseIpAt, if_neg hne]
  rw [toNat_saturatingAdd, hidx]

theorem leaseIpAt_eq_iff (hi : i < config.poolSize) (hj : j < config.poolSize) :
    config.leaseIpAt (UInt8.ofNat i) = config.leaseIpAt (UInt8.ofNat j) ↔
      min (config.leaseIpv4.d.toNat + i) 255 = min (config.leaseIpv4.d.toNat + j) 255 := by
  rw [← leaseIpAt_d hi, ← leaseIpAt_d hj, UInt8.toNat_inj]
  constructor
  · intro h
    rw [h]
  · intro h
    simp only [leaseIpAt, Ipv4Addr.mk.injEq, true_and]
    exact h

theorem leaseIpAt_injective (hi : i < config.distinct) (hj : j < config.distinct)
    (h : config.leaseIpAt (UInt8.ofNat i) = config.leaseIpAt (UInt8.ofNat j)) : i = j := by
  have hle := config.distinct_le_poolSize
  have hroom : config.distinct ≤ 256 - config.leaseIpv4.d.toNat := Nat.min_le_right _ _
  rw [leaseIpAt_eq_iff (by omega) (by omega)] at h
  omega

theorem exists_distinct (hi : i < config.poolSize) :
    ∃ j < config.distinct, config.leaseIpAt (UInt8.ofNat j) = config.leaseIpAt (UInt8.ofNat i) := by
  by_cases hlt : i < config.distinct
  · exact ⟨i, hlt, rfl⟩
  · have hle := config.distinct_le_poolSize
    have hbase : config.leaseIpv4.d.toNat < 256 := config.leaseIpv4.d.toNat_lt
    have hdistinct : config.distinct = 256 - config.leaseIpv4.d.toNat := by
      unfold distinct at hlt ⊢
      omega
    refine ⟨config.distinct - 1, by omega, ?_⟩
    rw [leaseIpAt_eq_iff (by omega) hi]
    omega

end WifiApConfig

/-! ## The server -/

structure DhcpBinding where
  mac : Mac
  ip : Ipv4Addr
  deriving DecidableEq, Repr

/-- The first address of the pool that is in no slot, put in the first slot that is free. A candidate
with no slot to go to falls through to the next one. -/
def freshLease (clients : List (Option DhcpBinding)) (mac : Mac) (config : WifiApConfig) :
    Option (Ipv4Addr × List (Option DhcpBinding)) :=
  (List.range config.poolSize).findSome? fun i =>
    let candidate := config.leaseIpAt (UInt8.ofNat i)
    if clients.any fun slot => slot.any fun c => c.ip == candidate then none
    else (insertFirst ⟨mac, candidate⟩ clients).map fun clients' => (candidate, clients')

def dhcpAssignIp (clients : List (Option DhcpBinding)) (mac : Mac) (config : WifiApConfig) :
    Option Ipv4Addr × List (Option DhcpBinding) :=
  match clients.findSome? fun slot => slot.bind fun c => if c.mac = mac then some c.ip else none with
  | some ip => (some ip, clients)
  | none =>
    match freshLease clients mac config with
    | some (ip, clients') => (some ip, clients')
    | none => (none, clients)

inductive DhcpMessageType where
  | discover
  | offer
  | request
  | decline
  | ack
  | nak
  | release
  | inform
  | unknown (code : UInt8)
  deriving DecidableEq, Repr

/-- What the server reads of a request. -/
structure DhcpRequest where
  messageType : DhcpMessageType
  transactionId : UInt32
  clientHardwareAddress : Mac

/-- What the server sets in a reply, but for the fields it leaves empty. -/
structure DhcpReply where
  messageType : DhcpMessageType
  transactionId : UInt32
  clientHardwareAddress : Mac
  yourIp : Ipv4Addr
  serverIp : Ipv4Addr
  router : Ipv4Addr
  subnetMask : Ipv4Addr
  serverIdentifier : Ipv4Addr
  broadcast : Bool
  leaseDuration : UInt32

def DHCP_LEASE_SECS : UInt32 := 3600

def replyType : DhcpMessageType → Option DhcpMessageType
  | .discover => some .offer
  | .request => some .ack
  | _ => none

def reply (config : WifiApConfig) (req : DhcpRequest) (messageType : DhcpMessageType)
    (yourIp : Ipv4Addr) : DhcpReply where
  messageType := messageType
  transactionId := req.transactionId
  clientHardwareAddress := req.clientHardwareAddress
  yourIp := yourIp
  serverIp := config.apIpv4
  router := config.apIpv4
  subnetMask := ⟨255, 255, 255, 0⟩
  serverIdentifier := config.apIpv4
  broadcast := true
  leaseDuration := DHCP_LEASE_SECS

/-- The server's table, what `dhcpAssignIp` answered to each client so far, and what was sent. -/
structure DhcpServer where
  clients : List (Option DhcpBinding) := List.replicate MAX_DHCP_CLIENTS none
  answered : List (Mac × Option Ipv4Addr) := []
  sent : List DhcpReply := []

namespace DhcpServer

/-- The address that a request is answered with, if any. -/
def yourIp (config : WifiApConfig) (s : DhcpServer) (req : DhcpRequest) : Option Ipv4Addr :=
  (replyType req.messageType).bind fun _ =>
    (dhcpAssignIp s.clients req.clientHardwareAddress config).1

def serve (config : WifiApConfig) (s : DhcpServer) (req : DhcpRequest) : DhcpServer :=
  match replyType req.messageType with
  | none => s
  | some messageType =>
    let (yourIp, clients) := dhcpAssignIp s.clients req.clientHardwareAddress config
    { clients := clients
      answered := s.answered ++ [(req.clientHardwareAddress, yourIp)]
      sent := s.sent ++ (yourIp.map (reply config req messageType)).toList }

end DhcpServer

/-! ## The table -/

variable {config : WifiApConfig} {macs : List Mac} {mac : Mac}

/-- The bindings of the clients `macs`, in the order they came. -/
def bindings (config : WifiApConfig) (macs : List Mac) : List DhcpBinding :=
  macs.mapIdx fun i mac => ⟨mac, config.leaseIpAt (UInt8.ofNat i)⟩

def table (config : WifiApConfig) (macs : List Mac) : List (Option DhcpBinding) :=
  filled (bindings config macs) (MAX_DHCP_CLIENTS - macs.length)

theorem bindings_concat (mac : Mac) :
    bindings config (macs ++ [mac]) =
      bindings config macs ++ [⟨mac, config.leaseIpAt (UInt8.ofNat macs.length)⟩] := by
  simp [bindings, List.mapIdx_append]

theorem findSome?_mapIdx (f : ℕ → Ipv4Addr) (macs : List Mac) (mac : Mac) :
    (macs.mapIdx fun i m => (⟨m, f i⟩ : DhcpBinding)).findSome?
        (fun c => if c.mac = mac then some c.ip else none) =
      if mac ∈ macs then some (f (macs.idxOf mac)) else none := by
  induction macs generalizing f with
  | nil => rfl
  | cons m macs ih =>
    rw [List.mapIdx_cons, List.findSome?_cons]
    by_cases hm : m = mac
    · simp [hm]
    · have htail := ih fun i => f (i + 1)
      simp only [if_neg hm, htail, List.mem_cons, Ne.symm hm, false_or, List.idxOf_cons_ne _ hm]

theorem mem_bindings_ip {ip : Ipv4Addr} :
    (∃ c ∈ bindings config macs, c.ip = ip) ↔
      ∃ i < macs.length, config.leaseIpAt (UInt8.ofNat i) = ip := by
  constructor
  · rintro ⟨c, hc, rfl⟩
    obtain ⟨i, hi, rfl⟩ := List.mem_mapIdx.mp hc
    exact ⟨i, hi, rfl⟩
  · rintro ⟨i, hi, rfl⟩
    exact ⟨_, List.mem_mapIdx.mpr ⟨i, hi, rfl⟩, rfl⟩

theorem mem_table_ip {ip : Ipv4Addr} :
    (∃ c, some c ∈ table config macs ∧ c.ip = ip) ↔
      ∃ i < macs.length, config.leaseIpAt (UInt8.ofNat i) = ip := by
  rw [← mem_bindings_ip]
  simp [table, filled]

theorem known_table (config : WifiApConfig) (macs : List Mac) (mac : Mac) :
    ((table config macs).findSome? fun slot => slot.bind fun c =>
        if c.mac = mac then some c.ip else none) =
      if mac ∈ macs then some (config.leaseIpAt (UInt8.ofNat (macs.idxOf mac))) else none := by
  rw [table, findSome?_filled rfl]
  exact findSome?_mapIdx _ macs mac

theorem taken_table (ip : Ipv4Addr) :
    ((table config macs).any fun slot => slot.any fun c => c.ip == ip) = true ↔
      ∃ i < macs.length, config.leaseIpAt (UInt8.ofNat i) = ip := by
  rw [table, any_filled rfl, List.any_eq_true, ← mem_bindings_ip]
  simp

theorem insertFirst_table (hroom : macs.length < MAX_DHCP_CLIENTS) (mac : Mac) :
    insertFirst ⟨mac, config.leaseIpAt (UInt8.ofNat macs.length)⟩ (table config macs) =
      some (table config (macs ++ [mac])) := by
  obtain ⟨free, hfree⟩ := Nat.exists_eq_add_of_lt hroom
  have hold : MAX_DHCP_CLIENTS - macs.length = free + 1 := by omega
  have hnew : MAX_DHCP_CLIENTS - (macs ++ [mac]).length = free := by
    rw [List.length_append, List.length_singleton]
    omega
  rw [table, table, hold, hnew, bindings_concat, insertFirst_filled]

theorem freshLease_room (hlt : macs.length < config.distinct) (mac : Mac) :
    freshLease (table config macs) mac config =
      some (config.leaseIpAt (UInt8.ofNat macs.length), table config (macs ++ [mac])) := by
  have hpool := config.distinct_le_poolSize
  have hclients := config.poolSize_le_clients
  obtain ⟨rest, hrest⟩ := Nat.exists_eq_add_of_lt (lt_of_lt_of_le hlt hpool)
  unfold freshLease
  rw [List.findSome?_eq_some_iff]
  refine ⟨List.range macs.length, macs.length, (List.range rest).map (macs.length + 1 + ·),
    ?_, ?_, ?_⟩
  · rw [hrest, Nat.add_right_comm, List.range_add, List.range_succ, List.append_assoc]
    rfl
  · have hfree : ¬ ((table config macs).any fun slot =>
        slot.any fun c => c.ip == config.leaseIpAt (UInt8.ofNat macs.length)) = true := by
      rw [taken_table]
      rintro ⟨i, hi, heq⟩
      exact absurd (WifiApConfig.leaseIpAt_injective (by omega) hlt heq) (by omega)
    have hslot : macs.length < MAX_DHCP_CLIENTS := by omega
    simp only [if_neg hfree, insertFirst_table hslot mac, Option.map_some]
  · intro i hi
    simp only [if_pos ((taken_table _).mpr ⟨i, List.mem_range.mp hi, rfl⟩)]

theorem freshLease_full (hfull : macs.length = config.distinct) (mac : Mac) :
    freshLease (table config macs) mac config = none := by
  unfold freshLease
  rw [List.findSome?_eq_none_iff]
  intro i hi
  obtain ⟨j, hj, hji⟩ := WifiApConfig.exists_distinct (List.mem_range.mp hi)
  rw [← hfull] at hj
  simp only [if_pos ((taken_table _).mpr ⟨j, hj, hji⟩)]

/-- What the server does with a client: a bound one keeps its address, a new one gets the next
address while there is a distinct one left, and is refused after that. -/
theorem dhcpAssignIp_table (hlen : macs.length ≤ config.distinct) (mac : Mac) :
    dhcpAssignIp (table config macs) mac config =
      if mac ∈ macs then
        (some (config.leaseIpAt (UInt8.ofNat (macs.idxOf mac))), table config macs)
      else if macs.length < config.distinct then
        (some (config.leaseIpAt (UInt8.ofNat macs.length)), table config (macs ++ [mac]))
      else (none, table config macs) := by
  unfold dhcpAssignIp
  rw [known_table]
  by_cases hmem : mac ∈ macs
  · simp only [if_pos hmem]
  · by_cases hlt : macs.length < config.distinct
    · simp only [if_neg hmem, freshLease_room hlt, if_pos hlt]
    · simp only [if_neg hmem, freshLease_full (by omega : macs.length = config.distinct),
        if_neg hlt]

/-! ## Runs -/

/-- The clients bound in the order they came, and what follows of the answers. -/
structure Tracks (config : WifiApConfig) (macs : List Mac) (as : List (Mac × Option Ipv4Addr)) :
    Prop where
  nodup : macs.Nodup
  length_le : macs.length ≤ config.distinct
  bound : ∀ mac ip, (mac, some ip) ∈ as ↔
    mac ∈ macs ∧ config.leaseIpAt (UInt8.ofNat (macs.idxOf mac)) = ip
  refused : ∀ mac, (mac, none) ∈ as → mac ∉ macs ∧ macs.length = config.distinct

/-- One answer of the server given the answers before it. -/
structure Rightly (config : WifiApConfig) (pre : List (Mac × Option Ipv4Addr)) (mac : Mac)
    (x : Option Ipv4Addr) : Prop where
  same : ∀ y, (mac, y) ∈ pre → x = y
  injective : ∀ mac' ip, (mac', some ip) ∈ pre → x = some ip → mac' = mac
  pool : ∀ ip, x = some ip → ip ∈ config.leasePool
  refuses : (∀ y, (mac, y) ∉ pre) →
    (x = none ↔ ∀ ip ∈ config.leasePool, ∃ mac', (mac', some ip) ∈ pre)

/-- The answers are a partial injection from clients to the pool that only lacks what does not
fit. -/
def LeaseLaw (config : WifiApConfig) (as : List (Mac × Option Ipv4Addr)) : Prop :=
  ∀ pre mac x, pre ++ [(mac, x)] <+: as → Rightly config pre mac x

theorem leaseLaw_nil : LeaseLaw config [] := by
  intro pre mac x hpre
  simp at hpre

theorem leaseLaw_concat {as : List (Mac × Option Ipv4Addr)} {x : Option Ipv4Addr} :
    LeaseLaw config (as ++ [(mac, x)]) ↔ LeaseLaw config as ∧ Rightly config as mac x := by
  constructor
  · intro h
    exact ⟨fun pre mac' x' hpre => h pre mac' x' (hpre.trans (List.prefix_append _ _)),
      h as mac x List.prefix_rfl⟩
  · rintro ⟨has, hx⟩ pre mac' x' hpre
    rw [List.prefix_concat_iff] at hpre
    cases hpre with
    | inl heq =>
      obtain ⟨rfl, hlast⟩ := List.append_inj' heq rfl
      cases hlast
      exact hx
    | inr hpre => exact has pre mac' x' hpre

theorem mem_leasePool {ip : Ipv4Addr} :
    ip ∈ config.leasePool ↔ ∃ i < config.distinct, config.leaseIpAt (UInt8.ofNat i) = ip := by
  unfold WifiApConfig.leasePool
  simp only [List.mem_map, List.mem_range]
  constructor
  · rintro ⟨i, hi, rfl⟩
    exact WifiApConfig.exists_distinct hi
  · rintro ⟨i, hi, rfl⟩
    exact ⟨i, lt_of_lt_of_le hi config.distinct_le_poolSize, rfl⟩

namespace Tracks

variable {as : List (Mac × Option Ipv4Addr)}

theorem exists_bound (h : Tracks config macs as) {ip : Ipv4Addr} :
    (∃ mac, (mac, some ip) ∈ as) ↔
      ∃ i < macs.length, config.leaseIpAt (UInt8.ofNat i) = ip := by
  constructor
  · rintro ⟨mac, hmac⟩
    obtain ⟨hmem, hip⟩ := (h.bound mac ip).mp hmac
    exact ⟨macs.idxOf mac, List.idxOf_lt_length_iff.mpr hmem, hip⟩
  · rintro ⟨i, hi, hip⟩
    refine ⟨macs[i], (h.bound _ _).mpr ⟨List.getElem_mem hi, ?_⟩⟩
    rw [h.nodup.idxOf_getElem]
    exact hip

theorem mem_of_answered (h : Tracks config macs as) {x : Option Ipv4Addr} (hx : (mac, x) ∈ as) :
    mac ∈ macs ∨ macs.length = config.distinct := by
  cases x with
  | some ip => exact Or.inl ((h.bound mac ip).mp hx).1
  | none => exact Or.inr (h.refused mac hx).2

theorem known (h : Tracks config macs as) (hmem : mac ∈ macs) :
    Rightly config as mac (some (config.leaseIpAt (UInt8.ofNat (macs.idxOf mac)))) where
  same := by
    intro y hy
    cases y with
    | some ip => rw [((h.bound mac ip).mp hy).2]
    | none => exact absurd hmem (h.refused mac hy).1
  injective := by
    intro mac' ip hmac' hip
    obtain ⟨hmem', hip'⟩ := (h.bound mac' ip).mp hmac'
    have hlt := List.idxOf_lt_length_iff.mpr hmem
    have hlt' := List.idxOf_lt_length_iff.mpr hmem'
    -- two places below `distinct` have different addresses
    have hidx : macs.idxOf mac' = macs.idxOf mac := by
      apply WifiApConfig.leaseIpAt_injective (lt_of_lt_of_le hlt' h.length_le)
        (lt_of_lt_of_le hlt h.length_le)
      rw [hip']
      exact (Option.some.inj hip).symm
    exact (List.idxOf_inj hmem').mp hidx
  pool := by
    intro ip hip
    have hlt := List.idxOf_lt_length_iff.mpr hmem
    exact mem_leasePool.mpr ⟨_, lt_of_lt_of_le hlt h.length_le, Option.some.inj hip⟩
  refuses := by
    intro hnew
    exact absurd ((h.bound mac _).mpr ⟨hmem, rfl⟩) (hnew _)

theorem fresh (h : Tracks config macs as) (hmem : mac ∉ macs)
    (hlt : macs.length < config.distinct) :
    Rightly config as mac (some (config.leaseIpAt (UInt8.ofNat macs.length))) where
  same := by
    intro y hy
    cases h.mem_of_answered hy with
    | inl hold => exact absurd hold hmem
    | inr hfull => omega
  injective := by
    intro mac' ip hmac' hip
    obtain ⟨i, hi, hip'⟩ := h.exists_bound.mp ⟨mac', hmac'⟩
    rw [← Option.some.inj hip] at hip'
    exact absurd (WifiApConfig.leaseIpAt_injective (by omega) hlt hip') (by omega)
  pool := fun ip hip => mem_leasePool.mpr ⟨_, hlt, Option.some.inj hip⟩
  refuses := by
    intro hnew
    refine ⟨fun h => absurd h (Option.some_ne_none _), fun hall => ?_⟩
    obtain ⟨i, hi, hip⟩ := h.exists_bound.mp (hall _ (mem_leasePool.mpr ⟨_, hlt, rfl⟩))
    exact absurd (WifiApConfig.leaseIpAt_injective (by omega) hlt hip) (by omega)

theorem full (h : Tracks config macs as) (hmem : mac ∉ macs)
    (hfull : macs.length = config.distinct) : Rightly config as mac none where
  same := by
    intro y hy
    cases y with
    | some ip => exact absurd ((h.bound mac ip).mp hy).1 hmem
    | none => rfl
  injective := fun mac' ip hmac' hip => absurd hip.symm (Option.some_ne_none ip)
  pool := fun ip hip => absurd hip.symm (Option.some_ne_none ip)
  refuses := by
    intro hnew
    refine ⟨fun _ ip hip => ?_, fun _ => rfl⟩
    rw [h.exists_bound, hfull]
    exact mem_leasePool.mp hip

/-! ### What an answer leaves -/

theorem nil (config : WifiApConfig) : Tracks config [] [] where
  nodup := List.nodup_nil
  length_le := Nat.zero_le _
  bound := by simp
  refused := by simp

theorem concat_known (h : Tracks config macs as) (hmem : mac ∈ macs) :
    Tracks config macs
      (as ++ [(mac, some (config.leaseIpAt (UInt8.ofNat (macs.idxOf mac))))]) where
  nodup := h.nodup
  length_le := h.length_le
  bound := by
    intro mac' ip
    rw [List.mem_append, h.bound, List.mem_singleton]
    constructor
    · rintro (hold | hnew)
      · exact hold
      · cases hnew
        exact ⟨hmem, rfl⟩
    · exact Or.inl
  refused := by
    intro mac' hmac'
    rw [List.mem_append, List.mem_singleton] at hmac'
    cases hmac' with
    | inl hold => exact h.refused mac' hold
    | inr hnew => cases hnew

theorem concat_fresh (h : Tracks config macs as) (hmem : mac ∉ macs)
    (hlt : macs.length < config.distinct) :
    Tracks config (macs ++ [mac])
      (as ++ [(mac, some (config.leaseIpAt (UInt8.ofNat macs.length)))]) where
  nodup := by
    rw [List.nodup_append_comm]
    exact List.nodup_cons.mpr ⟨hmem, h.nodup⟩
  length_le := by
    rw [List.length_append, List.length_singleton]
    exact hlt
  bound := by
    intro mac' ip
    rw [List.mem_append, h.bound, List.mem_singleton, List.mem_append, List.mem_singleton]
    by_cases hmem' : mac' ∈ macs
    · have hne : mac' ≠ mac := fun heq => hmem (heq ▸ hmem')
      simp [hmem', hne, List.idxOf_append_of_mem hmem']
    · by_cases heq : mac' = mac
      · subst heq
        simp [hmem, List.idxOf_append_of_notMem hmem, eq_comm]
      · simp [hmem', heq]
  refused := by
    intro mac' hmac'
    rw [List.mem_append, List.mem_singleton] at hmac'
    cases hmac' with
    | inl hold =>
      -- a client was refused only with every distinct address in use
      have hfull := (h.refused mac' hold).2
      omega
    | inr hnew => cases hnew

theorem concat_full (h : Tracks config macs as) (hmem : mac ∉ macs)
    (hfull : macs.length = config.distinct) : Tracks config macs (as ++ [(mac, none)]) where
  nodup := h.nodup
  length_le := h.length_le
  bound := by
    intro mac' ip
    rw [List.mem_append, h.bound, List.mem_singleton]
    simp
  refused := by
    intro mac' hmac'
    rw [List.mem_append, List.mem_singleton] at hmac'
    cases hmac' with
    | inl hold => exact h.refused mac' hold
    | inr hnew =>
      cases hnew
      exact ⟨hmem, hfull⟩

theorem length_eq (h : Tracks config macs as) :
    macs.length = min (as.map Prod.fst).toFinset.card config.distinct := by
  have hsub : macs.toFinset ⊆ (as.map Prod.fst).toFinset := by
    intro mac hmac
    rw [List.mem_toFinset] at hmac ⊢
    exact List.mem_map.mpr ⟨_, (h.bound mac _).mpr ⟨hmac, rfl⟩, rfl⟩
  have hcard := Finset.card_le_card hsub
  rw [List.toFinset_card_of_nodup h.nodup] at hcard
  by_cases hfull : macs.length = config.distinct
  · omega
  · -- while there is room every client that asked was bound
    have hsup : (as.map Prod.fst).toFinset ⊆ macs.toFinset := by
      intro mac hmac
      rw [List.mem_toFinset] at hmac ⊢
      obtain ⟨⟨mac, x⟩, hx, rfl⟩ := List.mem_map.mp hmac
      exact (h.mem_of_answered hx).resolve_right hfull
    have hcard' := Finset.card_le_card hsup
    rw [List.toFinset_card_of_nodup h.nodup] at hcard'
    have hle := h.length_le
    omega

end Tracks

namespace DhcpServer

/-- The server's table holds the clients it has bound, and its answers follow the law. -/
structure Serves (config : WifiApConfig) (s : DhcpServer) (macs : List Mac) : Prop where
  clients : s.clients = table config macs
  tracks : Tracks config macs s.answered
  law : LeaseLaw config s.answered

theorem serves_start (config : WifiApConfig) : Serves config {} [] where
  clients := rfl
  tracks := Tracks.nil config
  law := leaseLaw_nil

theorem serve_cases {s : DhcpServer} (h : Serves config s macs) (req : DhcpRequest) :
    (s.yourIp config req = none ∧ Serves config (s.serve config req) macs) ∨
      (∃ i < macs.length, s.yourIp config req = some (config.leaseIpAt (UInt8.ofNat i)) ∧
        Serves config (s.serve config req) macs) ∨
      (macs.length < config.distinct ∧
        s.yourIp config req = some (config.leaseIpAt (UInt8.ofNat macs.length)) ∧
        Serves config (s.serve config req) (macs ++ [req.clientHardwareAddress])) := by
  unfold serve yourIp
  cases hreply : replyType req.messageType with
  -- any other message is dropped without a look at the table
  | none => exact Or.inl ⟨rfl, h⟩
  | some messageType =>
    rw [h.clients]
    simp only [dhcpAssignIp_table h.tracks.length_le, Option.bind_some]
    by_cases hmem : req.clientHardwareAddress ∈ macs
    · simp only [if_pos hmem]
      exact Or.inr (Or.inl ⟨_, List.idxOf_lt_length_iff.mpr hmem, rfl, rfl,
        h.tracks.concat_known hmem, leaseLaw_concat.mpr ⟨h.law, h.tracks.known hmem⟩⟩)
    · simp only [if_neg hmem]
      by_cases hlt : macs.length < config.distinct
      · simp only [if_pos hlt]
        exact Or.inr (Or.inr ⟨hlt, trivial, rfl, h.tracks.concat_fresh hmem hlt,
          leaseLaw_concat.mpr ⟨h.law, h.tracks.fresh hmem hlt⟩⟩)
      · have hfull : macs.length = config.distinct := by
          have hle := h.tracks.length_le
          omega
        simp only [if_neg hlt]
        exact Or.inl ⟨trivial, rfl, h.tracks.concat_full hmem hfull,
          leaseLaw_concat.mpr ⟨h.law, h.tracks.full hmem hfull⟩⟩

theorem serves_serve {s : DhcpServer} (h : Serves config s macs) (req : DhcpRequest) :
    ∃ macs', Serves config (s.serve config req) macs' := by
  rcases serve_cases h req with ⟨-, hs⟩ | ⟨i, -, -, hs⟩ | ⟨-, -, hs⟩
  · exact ⟨_, hs⟩
  · exact ⟨_, hs⟩
  · exact ⟨_, hs⟩

theorem serves_run (config : WifiApConfig) (reqs : List DhcpRequest) :
    ∃ macs, Serves config (run (serve config) {} reqs) macs := by
  induction reqs using List.reverseRecOn with
  | nil => exact ⟨[], serves_start config⟩
  | append_singleton reqs req ih =>
    obtain ⟨macs, hmacs⟩ := ih
    rw [run_concat]
    exact serves_serve hmacs req

/-- The clients that sent a message the server answers. -/
def asker (req : DhcpRequest) : Option Mac :=
  (replyType req.messageType).map fun _ => req.clientHardwareAddress

theorem answered_fst (config : WifiApConfig) (reqs : List DhcpRequest) :
    (run (serve config) {} reqs).answered.map Prod.fst = reqs.filterMap asker := by
  induction reqs using List.reverseRecOn with
  | nil => rfl
  | append_singleton reqs req ih =>
    rw [run_concat, List.filterMap_append, ← ih, serve]
    cases hreply : replyType req.messageType with
    | none => simp [asker, hreply]
    | some messageType => simp [asker, hreply]

/-- The leases that the answers give, in the order they were given. -/
def given (as : List (Mac × Option Ipv4Addr)) : List (Mac × Ipv4Addr) :=
  as.filterMap fun a => a.2.map fun ip => (a.1, ip)

theorem given_concat (as : List (Mac × Option Ipv4Addr)) (mac : Mac) (x : Option Ipv4Addr) :
    given (as ++ [(mac, x)]) = given as ++ (x.map fun ip => (mac, ip)).toList := by
  rw [given, List.filterMap_append]
  cases x <;> rfl

/-- Every lease given is sent to its client, and nothing else is. -/
theorem sent_run (config : WifiApConfig) (reqs : List DhcpRequest) :
    (run (serve config) {} reqs).sent.map (fun r => (r.clientHardwareAddress, r.yourIp)) =
      given (run (serve config) {} reqs).answered := by
  induction reqs using List.reverseRecOn with
  | nil => rfl
  | append_singleton reqs req ih =>
    rw [run_concat, serve]
    cases hreply : replyType req.messageType with
    | none => exact ih
    | some messageType =>
      dsimp only
      rw [given_concat, List.map_append, ih]
      cases (dhcpAssignIp (run (serve config) {} reqs).clients req.clientHardwareAddress config).1
      all_goals rfl

theorem named_run (config : WifiApConfig) (reqs : List DhcpRequest) :
    ∀ r ∈ (run (serve config) {} reqs).sent,
      r.serverIp = config.apIpv4 ∧ r.router = config.apIpv4 := by
  induction reqs using List.reverseRecOn with
  | nil => simp
  | append_singleton reqs req ih =>
    intro r hr
    rw [run_concat, serve] at hr
    cases hreply : replyType req.messageType with
    | none =>
      simp only [hreply] at hr
      exact ih r hr
    | some messageType =>
      simp only [hreply, List.mem_append, Option.mem_toList, Option.map_eq_some_iff] at hr
      rcases hr with hold | ⟨ip, -, rfl⟩
      · exact ih r hold
      · exact ⟨rfl, rfl⟩

/-- The server answers every client that asks, the same way each time, gives no address twice, keeps
to the pool, and refuses a new client exactly when the pool is all in use. What it gives it sends,
and nothing else. -/
theorem leases_consistent (config : WifiApConfig) (reqs : List DhcpRequest) :
    (run (serve config) {} reqs).answered.map Prod.fst = reqs.filterMap asker ∧
      LeaseLaw config (run (serve config) {} reqs).answered ∧
      (run (serve config) {} reqs).sent.map (fun r => (r.clientHardwareAddress, r.yourIp)) =
        given (run (serve config) {} reqs).answered ∧
      ∀ r ∈ (run (serve config) {} reqs).sent,
        r.serverIp = config.apIpv4 ∧ r.router = config.apIpv4 := by
  obtain ⟨macs, hmacs⟩ := serves_run config reqs
  exact ⟨answered_fst config reqs, hmacs.law, sent_run config reqs, named_run config reqs⟩

/-! ## Usable addresses -/

/-- No client has the access point's own address or the broadcast address. -/
def Usable (config : WifiApConfig) (s : DhcpServer) : Prop :=
  ∀ mac ip, (mac, some ip) ∈ s.answered →
    ip ≠ config.apIpv4 ∧ ip ≠ config.apIpv4.broadcast

/-- The first `n` addresses from the first lease on stop short of the broadcast address and leave
out the access point's. -/
def Clear (config : WifiApConfig) (n : ℕ) : Prop :=
  config.leaseIpv4.d.toNat + n ≤ 255 ∧
    ¬ (config.leaseIpv4.d ≤ config.apIpv4.d ∧
      config.apIpv4.d.toNat < config.leaseIpv4.d.toNat + n)

/-- How many addresses the requests draw from the pool. -/
def drawn (config : WifiApConfig) (reqs : List DhcpRequest) : ℕ :=
  min (reqs.filterMap asker).toFinset.card config.poolSize

theorem leaseIpAt_eq_ip_iff {i : ℕ} {ip : Ipv4Addr} (hnet : ip.SameNet config.leaseIpv4)
    (hi : i < config.poolSize) :
    config.leaseIpAt (UInt8.ofNat i) = ip ↔
      min (config.leaseIpv4.d.toNat + i) 255 = ip.d.toNat := by
  rw [← WifiApConfig.leaseIpAt_d hi, UInt8.toNat_inj]
  constructor
  · intro h
    rw [h]
  · intro h
    obtain ⟨ha, hb, hc⟩ := hnet
    cases ip
    simp only [WifiApConfig.leaseIpAt, Ipv4Addr.mk.injEq]
    exact ⟨ha.symm, hb.symm, hc.symm, h⟩

theorem Serves.usable_iff {s : DhcpServer} (h : Serves config s macs) :
    Usable config s ↔ ∀ i < macs.length, config.leaseIpAt (UInt8.ofNat i) ≠ config.apIpv4 ∧
      config.leaseIpAt (UInt8.ofNat i) ≠ config.apIpv4.broadcast := by
  constructor
  · intro husable i hi
    obtain ⟨mac, hmac⟩ := h.tracks.exists_bound.mpr ⟨i, hi, rfl⟩
    exact husable mac _ hmac
  · intro hfirst mac ip hmac
    obtain ⟨i, hi, rfl⟩ := h.tracks.exists_bound.mp ⟨mac, hmac⟩
    exact hfirst i hi

/-- The clients bound are those that draw an address before it saturates. -/
theorem Serves.length_eq {reqs : List DhcpRequest}
    (h : Serves config (run (serve config) {} reqs) macs) :
    macs.length = min (drawn config reqs) (256 - config.leaseIpv4.d.toNat) := by
  rw [h.tracks.length_eq, answered_fst, drawn, WifiApConfig.distinct, Nat.min_assoc]

/-- The clients are given usable addresses exactly when the addresses drawn are clear. -/
theorem usable_iff_clear (config : WifiApConfig) (reqs : List DhcpRequest)
    (hnet : config.apIpv4.SameNet config.leaseIpv4) :
    Usable config (run (serve config) {} reqs) ↔ Clear config (drawn config reqs) := by
  obtain ⟨macs, hmacs⟩ := serves_run config reqs
  have hdrawn := hmacs.length_eq
  have hbase : config.leaseIpv4.d.toNat < 256 := config.leaseIpv4.d.toNat_lt
  have hap : config.apIpv4.d.toNat < 256 := config.apIpv4.d.toNat_lt
  have hpool : ∀ i < macs.length, i < config.poolSize := fun i hi =>
    lt_of_lt_of_le hi (hmacs.tracks.length_le.trans config.distinct_le_poolSize)
  have hbroadcast : config.apIpv4.broadcast.SameNet config.leaseIpv4 := hnet
  rw [hmacs.usable_iff, Clear, UInt8.le_iff_toNat_le]
  constructor
  · intro h
    constructor
    · -- the address that the pool saturates at is the broadcast address
      by_contra hover
      have hi : 255 - config.leaseIpv4.d.toNat < macs.length := by omega
      refine (h _ hi).2 ((leaseIpAt_eq_ip_iff hbroadcast (hpool _ hi)).mpr ?_)
      show _ = 255
      omega
    · rintro ⟨hle, hlt⟩
      have hi : config.apIpv4.d.toNat - config.leaseIpv4.d.toNat < macs.length := by omega
      refine (h _ hi).1 ((leaseIpAt_eq_ip_iff hnet (hpool _ hi)).mpr ?_)
      omega
  · rintro ⟨hroom, hout⟩ i hi
    constructor
    · intro heq
      rw [leaseIpAt_eq_ip_iff hnet (hpool i hi)] at heq
      omega
    · intro heq
      rw [leaseIpAt_eq_ip_iff hbroadcast (hpool i hi)] at heq
      have hlast : config.apIpv4.broadcast.d.toNat = 255 := rfl
      omega

def hello (n : UInt8) : DhcpRequest := ⟨.discover, 0, ⟨2, 0, 0, 0, 0, n⟩⟩

def fourLeases (first : UInt8) : WifiApConfig :=
  (({} : WifiApConfig).withIpv4 ⟨10, 0, 0, 9⟩ ⟨10, 0, 0, first⟩).withLeasePool 4

/-- Three clients, one of which asks again. Of the leases from `.8` on the second client has the
access point's own address. -/
theorem usable_iff_clear_three :
    Usable (fourLeases 20)
        (run (serve (fourLeases 20)) {} [hello 1, hello 2, hello 1, hello 3]) ∧
      ¬ Usable (fourLeases 8)
        (run (serve (fourLeases 8)) {} [hello 1, hello 2, hello 1, hello 3]) := by
  constructor
  · rw [usable_iff_clear _ _ ⟨rfl, rfl, rfl⟩, Clear]
    decide +kernel
  · rw [usable_iff_clear _ _ ⟨rfl, rfl, rfl⟩, Clear]
    decide +kernel

/-- The second lease from `.254` is the broadcast address, and the second from `.2` is the access
point's own when that is `.3`. -/
theorem leases_unusable :
    ¬ (∀ (config : WifiApConfig) (reqs : List DhcpRequest),
        config.apIpv4.SameNet config.leaseIpv4 → config.leaseIpv4.IsHost →
          config.leaseIpv4 ≠ config.apIpv4 → ∀ mac,
            (mac, some config.apIpv4.broadcast) ∉ (run (serve config) {} reqs).answered) ∧
      ¬ (∀ (config : WifiApConfig) (reqs : List DhcpRequest),
        config.apIpv4.SameNet config.leaseIpv4 → config.leaseIpv4.IsHost →
          config.leaseIpv4 ≠ config.apIpv4 → ∀ mac,
            (mac, some config.apIpv4) ∉ (run (serve config) {} reqs).answered) := by
  constructor
  · intro h
    apply h ((({} : WifiApConfig).withIpv4 ⟨192, 168, 13, 1⟩ ⟨192, 168, 13, 254⟩).withLeasePool 2)
      [hello 1, hello 2] ⟨rfl, rfl, rfl⟩ (by decide +kernel) (by decide +kernel)
      ⟨2, 0, 0, 0, 0, 2⟩
    decide +kernel
  · intro h
    apply h ((({} : WifiApConfig).withIpv4 ⟨192, 168, 13, 3⟩ ⟨192, 168, 13, 2⟩).withLeasePool 2)
      [hello 1, hello 2] ⟨rfl, rfl, rfl⟩ (by decide +kernel) (by decide +kernel)
      ⟨2, 0, 0, 0, 0, 2⟩
    decide +kernel

end DhcpServer

end EspCsi.Wifi
