import TunnnejiTail.Cli.RunTunnel

/-! Coherence of the per-port tables. Listen ports are told apart as integers and stored
modulo 65536, so the tables are coherent exactly for groups whose server ports fit. -/
namespace TunnnejiTail.Cli
open Go Netip List

@[ext] structure PortPolicy where
  accept : Option (List Prefix)
  password : Option Str
  target : Option AddrPort
  forward : Option Str
  deriving DecidableEq

def PortPolicy.none : PortPolicy := ⟨.none,.none,.none,.none⟩

def policyAt (t : Tables) (tcp : GoMap UInt16 Str) (p : UInt16) : PortPolicy :=
  ⟨t.allowedIPsForPort.lookup p,t.passwordForPort.lookup p,t.serveTargets.lookup p,tcp.lookup p⟩

def PortEntry.policy (lookupHost : Resolver) (pe : PortEntry) : PortPolicy :=
  ⟨pe.acceptValue,pe.passwordValue,pe.targetValue lookupHost,pe.forwardValue⟩

/-- Every port has the policy of one server entry listening on it or none at all, and every
server entry has its policy under its own port. -/
def Coherent (lookupHost : Resolver) (ports : GoMap Str PortEntry) (t : Tables)
    (tcp : GoMap UInt16 Str) : Prop :=
  (∀ p : UInt16, p≠0 → policyAt t tcp p=.none ∨ ∃ k pe, ports.lookup k=some pe ∧ pe.isServer ∧ pe.listenPort=p.toNat ∧
      policyAt t tcp p=pe.policy lookupHost) ∧
  ∀ k pe, ports.lookup k=some pe → pe.isServer →
    ∃ p : UInt16, pe.listenPort=p.toNat ∧ policyAt t tcp p=pe.policy lookupHost

lemma Accepted.server_unique {env : Env} {args : List Str} {built : List (ℤ × TunnelGroup)} {st : ParseState}
    (ha : Accepted env args built st) {n : ℤ} {g : TunnelGroup}
    (hg : (n,g) ∈ built) {k k' : Str} {pe pe' : PortEntry} (hk : g.ports.lookup k=some pe)
    (hk' : g.ports.lookup k'=some pe') (hs : pe.isServer) (hs' : pe'.isServer)
    (hp : pe.listenPort=pe'.listenPort) : pe=pe' := by
  have hgb := ha.groupBuilt hg
  obtain ⟨m,hm,-,hpe⟩ := hgb.exists_mapping hk
  obtain ⟨-,-,hport,-,hd,-⟩ := entryOf_eq_some hpe
  have h := hgb.entryOf_mapping hk' hm (by simp [hs',hd.mp hs]) (hport.trans hp)
  exact Option.some.inj (hpe.symm.trans h)

def PortEntry.portFits (pe : PortEntry) : Prop := 0≤pe.listenPort ∧ pe.listenPort≤65535

variable {pe : PortEntry}

lemma key_toNat (h : pe.portFits) : (pe.key.toNat : ℤ)=pe.listenPort := by
  obtain ⟨h0,h1⟩ := h
  rw [PortEntry.key,uint16_toNat]
  omega

section
variable {o o' : MapOrder} {lookupHost : Resolver} {ports : GoMap Str PortEntry}

section
variable {ν : Type} {val : PortEntry → Option ν} (hval : ∀ pe, pe.isServer=false → val pe=none)
include hval

lemma lookup_fill_unserved {p : UInt16} (h : ∀ k pe, ports.lookup k=some pe → pe.isServer → pe.key≠p) :
    (fill PortEntry.key val (rangeEntries o ports) ∅).lookup p=none := by
  refine lookup_fill_eq_none.mpr fun pe hpe hkey => hval pe ?_
  obtain ⟨k,hk⟩ := mem_rangeEntries.mp hpe
  by_contra hs
  exact h k pe hk (by simpa using hs) hkey

lemma lookup_fill_served {k : Str} (hk : ports.lookup k=some pe)
    (hu : ∀ k' pe', ports.lookup k'=some pe' → pe'.isServer → pe'.key=pe.key → pe'=pe) :
    (fill PortEntry.key val (rangeEntries o ports) ∅).lookup pe.key=val pe := by
  refine lookup_fill_owner (mem_rangeEntries.mpr ⟨k,hk⟩) fun pe' hpe' hkey => ?_
  obtain ⟨k',hk'⟩ := mem_rangeEntries.mp hpe'
  cases hs : pe'.isServer with
  | false => exact .inr (hval pe' hs)
  | true => exact .inl (hu k' pe' hk' hs hkey)

end

lemma policyAt_eq_none {p : UInt16} (h : ∀ k pe, ports.lookup k=some pe → pe.isServer → pe.key≠p) :
    policyAt (portTables o lookupHost ports) (serveConfigTCP o' ports) p=.none := by
  ext1
  · rw [policyAt,portTables_allowedIPs]
    exact lookup_fill_unserved (fun pe hs => by simp [PortEntry.acceptValue,hs]) h
  · rw [policyAt,portTables_password]
    exact lookup_fill_unserved (fun pe hs => by simp [PortEntry.passwordValue,hs]) h
  · rw [policyAt,portTables_targets]
    exact lookup_fill_unserved (fun pe hs => by simp [PortEntry.targetValue,hs]) h
  · rw [policyAt,serveConfigTCP_eq]
    exact lookup_fill_unserved (fun pe hs => by simp [PortEntry.forwardValue,hs]) h

lemma policyAt_eq_policy {k : Str} (hk : ports.lookup k=some pe)
    (hu : ∀ k' pe', ports.lookup k'=some pe' → pe'.isServer → pe'.key=pe.key → pe'=pe) :
    policyAt (portTables o lookupHost ports) (serveConfigTCP o' ports) pe.key = pe.policy lookupHost := by
  ext1
  · rw [policyAt,portTables_allowedIPs]
    exact lookup_fill_served (fun pe hs => by simp [PortEntry.acceptValue,hs]) hk hu
  · rw [policyAt,portTables_password]
    exact lookup_fill_served (fun pe hs => by simp [PortEntry.passwordValue,hs]) hk hu
  · rw [policyAt,portTables_targets]
    exact lookup_fill_served (fun pe hs => by simp [PortEntry.targetValue,hs]) hk hu
  · rw [policyAt,serveConfigTCP_eq]
    exact lookup_fill_served (fun pe hs => by simp [PortEntry.forwardValue,hs]) hk hu

end

lemma Accepted.policyAt_key {env : Env} {args : List Str} {built : List (ℤ × TunnelGroup)}
    {st : ParseState} (ha : Accepted env args built st) {n : ℤ} {g : TunnelGroup} (hg : (n,g) ∈ built)
    (hfits : ∀ k pe, g.ports.lookup k=some pe → pe.isServer → pe.portFits)
    (o o' : MapOrder) (lookupHost : Resolver) {k : Str}
    (hk : g.ports.lookup k=some pe) (hs : pe.isServer) :
    policyAt (portTables o lookupHost g.ports) (serveConfigTCP o' g.ports) pe.key = pe.policy lookupHost := by
  refine policyAt_eq_policy hk fun k' pe' hk' hs' hkey => ?_
  refine ha.server_unique hg hk' hk hs' hs ?_
  rw [← key_toNat (hfits k' pe' hk' hs'),← key_toNat (hfits k pe hk hs),hkey]

/-- The tables of a group are coherent exactly when its server ports fit a uint16. -/
theorem coherent_iff {env : Env} {args : List Str} {built : List (ℤ × TunnelGroup)}
    (h : parseNumbered env args=.ok built) {n : ℤ} {g : TunnelGroup} (hg : (n,g) ∈ built)
    (o o' : MapOrder) (lookupHost : Resolver) :
    Coherent lookupHost g.ports (portTables o lookupHost g.ports) (serveConfigTCP o' g.ports) ↔
      ∀ k pe, g.ports.lookup k=some pe → pe.isServer → 0≤pe.listenPort ∧ pe.listenPort≤65535 := by
  obtain ⟨st,ha⟩ := exists_accepted h
  constructor
  · rintro ⟨-,hown⟩ k pe hk hs
    obtain ⟨p,hp,-⟩ := hown k pe hk hs
    have hlt := p.toNat_lt
    omega
  · intro hfits
    have hpolicy : ∀ k pe, g.ports.lookup k=some pe → pe.isServer →
        policyAt (portTables o lookupHost g.ports) (serveConfigTCP o' g.ports) pe.key = pe.policy lookupHost :=
      fun _ _ hk hs => ha.policyAt_key hg hfits o o' lookupHost hk hs
    refine ⟨fun p _ => ?_,fun k pe hk hs => ?_⟩
    · by_cases hserved : ∃ k pe, g.ports.lookup k=some pe ∧ pe.isServer ∧ pe.key=p
      · obtain ⟨k,pe,hk,hs,rfl⟩ := hserved
        exact .inr ⟨k,pe,hk,hs,(key_toNat (hfits k pe hk hs)).symm,hpolicy k pe hk hs⟩
      · refine .inl (policyAt_eq_none fun k pe hk hs hkey => ?_)
        exact hserved ⟨k,pe,hk,hs,hkey⟩
    · exact ⟨pe.key,(key_toNat (hfits k pe hk hs)).symm,hpolicy k pe hk hs⟩

/-- Two server ports on different hosts, the second with a password. -/
def secondHasPassword (port : Str) : List Str :=
  ["-K","k","-Sa","80:10.0.0.1","-Sb",port ++ ":10.0.0.2:81","-PSb","pw"]

theorem coherent_iff_ports_fit :
    ∃ built, ∃ g : TunnelGroup, parseNumbered .noFiles (secondHasPassword "81")=.ok built ∧
      (-1,g) ∈ built ∧ Coherent (fun _ => none) g.ports
        (portTables .asStored (fun _ => none) g.ports) (serveConfigTCP .asStored g.ports) := by
  have heval : observe (fun g => (rangeEntries .asStored g.ports).map (·.listenPort)) .noFiles
      (secondHasPassword "81")=.ok [(-1,[80,81])] := by decide +kernel
  obtain ⟨built,g,hb,hg,hports⟩ := exists_group_of_observe heval mem_cons_self
  refine ⟨built,g,hb,hg,(coherent_iff hb hg .asStored .asStored _).mpr fun k pe hk _ => ?_⟩
  have hmem := map_mem_rangeEntries (·.listenPort) .asStored hk
  rw [hports] at hmem
  simp only [mem_cons,not_mem_nil,or_false] at hmem
  omega

/-- Port 65616 is stored as port 80: its password guards the other entry's target. -/
theorem password_with_other_target :
    ∃ built, ∃ g : TunnelGroup, parseNumbered .noFiles (secondHasPassword "65616")=.ok built ∧ (-1,g) ∈ built ∧
      policyAt (portTables (.startingAt 1) (fun _ => none) g.ports) (serveConfigTCP (.startingAt 1) g.ports) 80 =
        ⟨none,some "pw",some ⟨.v4 0x0a000001#32,80⟩,some "10.0.0.1:80"⟩ ∧
      ¬Coherent (fun _ => none) g.ports (portTables (.startingAt 1) (fun _ => none) g.ports)
        (serveConfigTCP (.startingAt 1) g.ports) := by
  have heval : observe (fun g =>
      (policyAt (portTables (.startingAt 1) (fun _ => none) g.ports) (serveConfigTCP (.startingAt 1) g.ports) 80,
      (g.ports.lookup (portsKey .server "b" 65616)).map fun pe => (pe.isServer,pe.listenPort)))
      .noFiles (secondHasPassword "65616") =
      .ok [(-1,⟨none,some "pw",some ⟨.v4 0x0a000001#32,80⟩,some "10.0.0.1:80"⟩, some (true,65616))] := by decide +kernel
  obtain ⟨built,g,hb,hg,hgroup⟩ := exists_group_of_observe heval mem_cons_self
  obtain ⟨hpolicy,hentry⟩ := Prod.mk.inj hgroup
  refine ⟨built,g,hb,hg,hpolicy,fun hc => ?_⟩
  obtain ⟨pe,hk,hpe⟩ := Option.map_eq_some_iff.mp hentry
  obtain ⟨hs,hp⟩ := Prod.mk.inj hpe
  obtain ⟨p,hport,-⟩ := hc.2 _ pe hk hs
  have hlt := p.toNat_lt
  omega

end TunnnejiTail.Cli
