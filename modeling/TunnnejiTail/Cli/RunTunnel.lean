import TunnnejiTail.Cli.Build

/-! The tables runTunnel fills for one group before the backend starts: whitelists, passwords
and UDP targets of the netstack and the TCP part of the serve config. A key of these tables
is uint16(ListenPort), the listen port modulo 65536. -/
namespace TunnnejiTail.Cli
open Go Netip

def uint16 (n : ℤ) : UInt16 := UInt16.ofNat (n % 65536).toNat

abbrev Resolver := Str → Option (List Str)

structure Tables where
  allowedIPsForPort : GoMap UInt16 (List Prefix) := ∅
  passwordForPort : GoMap UInt16 Str := ∅
  serveTargets : GoMap UInt16 AddrPort := ∅

/-- The target of an entry for UDP: what netip.ParseAddr makes of the resolved host. -/
def PortEntry.serveTarget (lookupHost : Resolver) (pe : PortEntry) : Option AddrPort :=
  (parseAddr (resolveHost lookupHost pe.targetAddr)).map fun hostIP =>
    ⟨hostIP,uint16 pe.targetPort⟩

/-- One round of the loop over group.Ports that configures the netstack. -/
def fillPort (lookupHost : Resolver) (t : Tables) (pe : PortEntry) : Tables :=
  let p := uint16 pe.listenPort
  if !pe.isServer then t
  else {
    allowedIPsForPort :=
      if pe.accept≠[] then t.allowedIPsForPort.insert p pe.accept else t.allowedIPsForPort
    passwordForPort :=
      if pe.password≠[] then t.passwordForPort.insert p pe.password else t.passwordForPort
    serveTargets :=
      match pe.serveTarget lookupHost with
      | some target => t.serveTargets.insert p target
      | none => t.serveTargets }

def portTables (o : MapOrder) (lookupHost : Resolver) (ports : GoMap Str PortEntry) : Tables :=
  ((range o ports).map Prod.snd).foldl (fillPort lookupHost) {}

def PortEntry.tcpForward (pe : PortEntry) : Str := pe.targetAddr ++ ":" ++ itoa pe.targetPort

def serveConfigTCP (o : MapOrder) (ports : GoMap Str PortEntry) : GoMap UInt16 Str :=
  ((range o ports).map Prod.snd).foldl (fun tcp pe =>
    if pe.isServer then tcp.insert (uint16 pe.listenPort) pe.tcpForward else tcp) ∅

def PortEntry.key (pe : PortEntry) : UInt16 := uint16 pe.listenPort

def PortEntry.acceptValue (pe : PortEntry) : Option (List Prefix) :=
  if pe.isServer ∧ pe.accept≠[] then some pe.accept else none

def PortEntry.passwordValue (pe : PortEntry) : Option Str :=
  if pe.isServer ∧ pe.password≠[] then some pe.password else none

def PortEntry.targetValue (lookupHost : Resolver) (pe : PortEntry) : Option AddrPort :=
  if pe.isServer then pe.serveTarget lookupHost else none

def PortEntry.forwardValue (pe : PortEntry) : Option Str :=
  if pe.isServer then some pe.tcpForward else none

def rangeEntries (o : MapOrder) (ports : GoMap Str PortEntry) : List PortEntry :=
  (range o ports).map Prod.snd

variable {ports : GoMap Str PortEntry} {pe : PortEntry}

lemma mem_rangeEntries {o : MapOrder} : pe ∈ rangeEntries o ports ↔ ∃ k, ports.lookup k=some pe := by
  rw [rangeEntries,List.mem_map]
  constructor
  · rintro ⟨⟨k,pe'⟩,hmem,rfl⟩
    exact ⟨k,(mem_range o ports k pe').mp hmem⟩
  · rintro ⟨k,hk⟩
    exact ⟨(k,pe),(mem_range o ports k pe).mpr hk,rfl⟩

lemma map_mem_rangeEntries {α : Type} (f : PortEntry → α) (o : MapOrder)
    {k : Str} (h : ports.lookup k=some pe) : f pe ∈ (rangeEntries o ports).map f :=
  List.mem_map_of_mem (mem_rangeEntries.mpr ⟨k,h⟩)

lemma exists_rangeEntries_last {k : Str} (h : ports.lookup k=some pe) :
    ∃ (o : MapOrder) (before : List PortEntry), rangeEntries o ports=before++[pe] := by
  obtain ⟨o,before,hb⟩ := MapOrder.exists_visited_last (AList.mem_lookup_iff.mp h)
  refine ⟨o,before.map fun e => e.2,?_⟩
  simp [rangeEntries,range,hb]

section
variable (o : MapOrder) (lookupHost : Resolver) (ports : GoMap Str PortEntry)

lemma portTables_allowedIPs : (portTables o lookupHost ports).allowedIPsForPort =
    fill PortEntry.key PortEntry.acceptValue (rangeEntries o ports) ∅ := by
  refine foldl_eq_fill Tables.allowedIPsForPort (fun t pe => ?_) (rangeEntries o ports) {}
  cases hs : pe.isServer <;> by_cases ha : pe.accept=[] <;>
    simp [fillPort,fill,PortEntry.acceptValue,PortEntry.key,hs,ha]

lemma portTables_password : (portTables o lookupHost ports).passwordForPort =
    fill PortEntry.key PortEntry.passwordValue (rangeEntries o ports) ∅ := by
  refine foldl_eq_fill Tables.passwordForPort (fun t pe => ?_) (rangeEntries o ports) {}
  cases hs : pe.isServer <;> by_cases hp : pe.password=[] <;>
    simp [fillPort,fill,PortEntry.passwordValue,PortEntry.key,hs,hp]

lemma portTables_targets : (portTables o lookupHost ports).serveTargets =
    fill PortEntry.key (PortEntry.targetValue lookupHost) (rangeEntries o ports) ∅ := by
  refine foldl_eq_fill Tables.serveTargets (fun t pe => ?_) (rangeEntries o ports) {}
  cases hs : pe.isServer <;> cases ht : pe.serveTarget lookupHost <;>
    simp [fillPort,fill,PortEntry.targetValue,PortEntry.key,hs,ht]

lemma serveConfigTCP_eq : serveConfigTCP o ports =
    fill PortEntry.key PortEntry.forwardValue (rangeEntries o ports) ∅ := by
  refine foldl_eq_fill id (fun tcp pe => ?_) (rangeEntries o ports) ∅
  cases hs : pe.isServer <;> simp [fill,PortEntry.forwardValue,PortEntry.key,hs]

end

lemma forwardValue_eq_some {forward : Str} :
    pe.forwardValue=some forward ↔ pe.isServer ∧ forward=pe.tcpForward := by
  rw [PortEntry.forwardValue]
  cases hs : pe.isServer <;> simp [eq_comm]

lemma exists_of_serveConfigTCP {o : MapOrder} {p : UInt16}
    {forward : Str} (h : (serveConfigTCP o ports).lookup p=some forward) :
    ∃ k pe, ports.lookup k=some pe ∧ pe.isServer ∧ pe.key=p ∧ forward=pe.tcpForward := by
  rw [serveConfigTCP_eq] at h
  obtain ⟨pe,hmem,hkey,hv⟩ := exists_of_lookup_fill h
  obtain ⟨k,hk⟩ := mem_rangeEntries.mp hmem
  obtain ⟨hs,hf⟩ := forwardValue_eq_some.mp hv
  exact ⟨k,pe,hk,hs,hkey,hf⟩

lemma uint16_toNat (n : ℤ) : ((uint16 n).toNat : ℤ)=n % 65536 := by
  rw [uint16,UInt16.toNat_ofNat']
  omega

lemma uint16_eq_iff {n m : ℤ} : uint16 n=uint16 m ↔ n % 65536=m % 65536 := by
  rw [← UInt16.toNat_inj,← uint16_toNat,← uint16_toNat]
  omega

end TunnnejiTail.Cli
