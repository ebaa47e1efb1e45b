import TunnnejiTail.Cli.Client
import TunnnejiTail.Cli.Lookup
import TunnnejiTail.Netstack.Admission

/-! Whitelists on both sides. A list that names no address is read as no list at all, on
server ports an IPv4-mapped source is unmapped for TCP only, and server ports that agree
modulo 65536 share one list. -/
namespace TunnnejiTail.Netstack
open Go Netip Cli List

def Listed (list : Str) (a : Addr) : Prop :=
  ∃ part ∈ list.splitOn '_', part≠[] ∧ ∃ pfx, parseIPPart part=.ok pfx ∧ pfx.contains a

lemma forall_splitOn_eq_nil (c : Char) (s : Str) : (∀ part ∈ s.splitOn c, part=[]) ↔ ∀ x ∈ s, x=c := by
  induction s with
  | nil => simp
  | cons x xs ih =>
    rw [splitOn,splitOnP_cons_eq_if_modifyHead,← splitOn]
    by_cases hx : x=c
    · simp [hx,ih]
    · obtain ⟨part,parts,hparts⟩ := exists_cons_of_ne_nil (splitOn_ne_nil c xs)
      simp [hx,hparts]

section
variable {list : Str} {prefixes : List Prefix} (h : parseIPList list=.ok prefixes)
include h

lemma listed_iff (a : Addr) : prefixes.any (·.contains a) ↔ Listed list a := by
  simp only [any_eq_true,mem_mapM_ok h,Listed]
  constructor
  · intro hany
    obtain ⟨pfx,⟨part,hpart,hok⟩,hc⟩ := hany
    obtain ⟨hmem,hne⟩ := mem_filter.mp hpart
    exact ⟨part,hmem,by simpa using hne,pfx,hok,hc⟩
  · intro hlisted
    obtain ⟨part,hmem,hne,pfx,hok,hc⟩ := hlisted
    exact ⟨pfx,⟨part,mem_filter.mpr ⟨hmem,by simpa using hne⟩,hok⟩,hc⟩

lemma parseIPList_eq_nil_iff : prefixes=[] ↔ ∀ c ∈ list, c = '_' := by
  have hlen := (mapM_ok h).length_eq
  rw [← forall_splitOn_eq_nil,← length_eq_zero_iff,← hlen,length_eq_zero_iff, filter_eq_nil_iff]
  simp

end

section
variable {ports : GoMap Str PortEntry} {k list : Str} {pe : PortEntry}
  (hk : ports.lookup k=some pe) (hl : parseIPList list=.ok pe.accept)
include hk hl

/-- The decision follows the list of an entry under every order exactly when the guards of
its port do. -/
theorem forall_sourceAllowed_iff_listed (hs : pe.isServer) (src a : Addr) :
    (∀ o lookupHost, sourceAllowed (portTables o lookupHost ports) pe.key src ↔ Listed list a) ↔
      GuardsDecide ports pe.key src (Listed list a) := by
  rw [forall_sourceAllowed ports pe.key (P := fun allows => allows src=true ↔ Listed list a),GuardsDecide, and_comm]
  refine and_congr_left fun _ => ?_
  constructor
  · intro hopen
    by_contra hnone
    rw [not_exists] at hnone
    have hlisted : Listed list a := (hopen hnone).mp rfl
    refine hnone pe ⟨⟨k,hk⟩,hs,rfl,fun hnil => ?_⟩
    rw [← listed_iff hl,hnil] at hlisted
    exact Bool.false_ne_true hlisted
  · intro hsome hnone
    obtain ⟨pe',hg⟩ := hsome
    exact absurd hg (hnone pe')

end

lemma clientAllows_iff_listed {list : Str} {accept : List Prefix}
    (hl : parseIPList list=.ok accept) (a : Addr) :
    (clientAllows accept a ↔ Listed list a) ↔ ∃ c ∈ list, c ≠ '_' := by
  rw [← listed_iff hl,clientAllows]
  by_cases hnil : accept=[]
  · have hall := (parseIPList_eq_nil_iff hl).mp hnil
    simpa [hnil] using hall
  · have hsome : ∃ c ∈ list, c ≠ '_' := by
      by_contra hno
      simp only [not_exists,not_and,not_not] at hno
      exact hnil ((parseIPList_eq_nil_iff hl).mpr hno)
    simp [hnil,hsome]

/-- An entry's whitelist is exact on the client side when its list is more than underscores,
and on the server side when the lists stored under its port decide as its own does, with the
source unmapped for TCP. -/
theorem whitelist_exact_iff {env : Env} {args : List Str} {built : List (ℤ × TunnelGroup)}
    (h : parseNumbered env args=.ok built) {n : ℤ} {g : TunnelGroup} (hg : (n,g) ∈ built)
    {k : Str} {pe : PortEntry} (hk : g.ports.lookup k=some pe) {f : Flag}
    (hf : f ∈ flagsOf args) (hn : f.groupNum=n) {d : Direction} {mapping : Str}
    (hm : f.mapping=some (f.sub,⟨d,mapping⟩)) (hd : pe.isServer ↔ d=.server)
    (hp : RawEntry.listenPort ⟨d,mapping⟩=pe.listenPort) {af : Flag}
    (ha : acceptFlag (flagsOf args) n d f.sub=some af) : (d=.client → ∀ lookupHost sessions (src : AddrPort),
      ((AdmitsConn lookupHost pe src.addr ↔ Listed af.value src.addr) ∧
        (AdmitsDatagram lookupHost pe sessions src ↔ Listed af.value src.addr)) ↔ ∃ c ∈ af.value, c ≠ '_') ∧
    (d=.server → ∀ (Handler : Type) isLocalIP (lb : AddrPort → AddrPort → Option Handler)
      (r : TransportEndpointID), r.Addressed → r.localPort=pe.key →
      (lb ⟨r.clientRemoteIP,r.remotePort⟩ ⟨r.localIP,r.localPort⟩).isSome →
      ((∀ o lookupHost, AdmitsTCP (serving o lookupHost g isLocalIP lb) r ↔ Listed af.value r.src) ↔
        GuardsDecide g.ports pe.key r.src.unmap (Listed af.value r.src)) ∧
      ((∀ o lookupHost, AdmitsUDP (serving o lookupHost g isLocalIP lb) r ↔ Listed af.value r.src) ↔
        GuardsDecide g.ports pe.key r.src (Listed af.value r.src))) := by
  obtain ⟨st,hacc⟩ := exists_accepted h
  obtain ⟨-,-,-,-,-,haccept,-⟩ := entryOf_eq_some (hacc.entryOf_flag hg hk hf hn hm hd hp)
  have hl := hacc.recorded.lookupAccept_ok env n haccept
  simp only [ha] at hl
  refine ⟨fun _ lookupHost sessions src => ?_,fun hserver Handler isLocalIP lb r hr hport hlb => ?_⟩
  · rw [admitsConn_iff,admitsDatagram_iff,clientAllows_iff_listed hl,and_self]
  · have hs : pe.isServer := hd.mpr hserver
    simp only [admitsTCP_serving hr hlb,admitsUDP_serving hr,hport]
    exact ⟨forall_sourceAllowed_iff_listed hk hl hs _ _, forall_sourceAllowed_iff_listed hk hl hs _ _⟩

def listedPort (list : Str) : List Str := ["-K","k","-S","80:localhost","-AS",list]

theorem whitelist_exact_iff_ten :
    ∃ built, ∃ g : TunnelGroup, parseNumbered .noFiles (listedPort "10.0.0.0/8")=.ok built ∧
      (-1,g) ∈ built ∧ ∀ o lookupHost,
        AdmitsUDP (serving o lookupHost g (fun _ => true) fun _ _ => some ()) fromOutside ↔
          Listed "10.0.0.0/8" fromOutside.src := by
  have heval : observe (fun g => (g.ports.lookup (portsKey .server "" 80),
      (rangeEntries .asStored g.ports).map (·.accept))) .noFiles (listedPort "10.0.0.0/8") =
      .ok [(-1,some ⟨true,80,"localhost",80,[.v4 0x0a000000#32 8],[]⟩, [[.v4 0x0a000000#32 8]])] := by decide +kernel
  obtain ⟨built,g,hb,hg,hgroup⟩ := exists_group_of_observe heval mem_cons_self
  obtain ⟨hk,haccepts⟩ := Prod.mk.inj hgroup
  refine ⟨built,g,hb,hg,?_⟩
  have hflag : (⟨.S,-1,[],none,"80:localhost"⟩ : Flag) ∈ flagsOf (listedPort "10.0.0.0/8") := by
    decide +kernel
  have haccept : acceptFlag (flagsOf (listedPort "10.0.0.0/8")) (-1) .server [] =
      some ⟨.A,-1,[],some .server,"10.0.0.0/8"⟩ := by decide +kernel
  have hlist : parseIPList "10.0.0.0/8" = .ok [.v4 0x0a000000#32 8] := by decide
  have hexact := whitelist_exact_iff hb hg hk hflag rfl rfl (by decide) (by decide +kernel) haccept
  refine ((hexact.2 rfl Unit (fun _ => true) (fun _ _ => some ()) fromOutside
    fromOutside_addressed (by decide) rfl).2).mpr ⟨⟨_,⟨_,hk⟩,rfl,rfl,by simp⟩,fun pe hguard => ?_⟩
  obtain ⟨k,hpe⟩ := hguard.stored
  have hmem := map_mem_rangeEntries (·.accept) .asStored hpe
  rw [haccepts,mem_singleton] at hmem
  rw [hmem]
  exact listed_iff hlist _

/-- The list "_" names no address, and the port is open to everybody. -/
theorem empty_list_admits_everybody :
    ∃ built, ∃ g : TunnelGroup, parseNumbered .noFiles (listedPort "_")=.ok built ∧ (-1,g) ∈ built ∧
      (g.ports.lookup (portsKey .server "" 80)).map (·.listenPort)=some 80 ∧
      acceptFlag (flagsOf (listedPort "_")) (-1) .server [] = some ⟨.A,-1,[],some .server,"_"⟩ ∧
      (∀ a, ¬Listed "_" a) ∧
      ∀ o lookupHost,
        AdmitsTCP (serving o lookupHost g (fun _ => true) fun _ _ => some ()) fromOutside ∧
        AdmitsUDP (serving o lookupHost g (fun _ => true) fun _ _ => some ()) fromOutside := by
  have heval : observe (fun g => ((g.ports.lookup (portsKey .server "" 80)).map (·.listenPort),
      (rangeEntries .asStored g.ports).map (·.accept))) .noFiles (listedPort "_") =
      .ok [(-1,some 80,[[]])] := by decide +kernel
  obtain ⟨built,g,hb,hg,hgroup⟩ := exists_group_of_observe heval mem_cons_self
  obtain ⟨hport,haccepts⟩ := Prod.mk.inj hgroup
  have hopen : ∀ p pe, ¬Guards g.ports p pe := by
    intro p pe hguard
    obtain ⟨k,hpe⟩ := hguard.stored
    have hmem := map_mem_rangeEntries (·.accept) .asStored hpe
    rw [haccepts,mem_singleton] at hmem
    exact hguard.listed hmem
  have hallowed : ∀ src o lookupHost, sourceAllowed (portTables o lookupHost g.ports) 80 src := by
    intro src
    exact (forall_sourceAllowed g.ports 80 (P := fun allows => allows src=true)).mpr
      ⟨fun pe hguard => absurd hguard (hopen 80 pe),fun _ => rfl⟩
  have hlist : parseIPList "_" = .ok [] := by decide
  refine ⟨built,g,hb,hg,hport,by decide +kernel,fun a hlisted => ?_,fun o lookupHost => ⟨?_,?_⟩⟩
  · exact Bool.false_ne_true ((listed_iff hlist a).mpr hlisted)
  · exact (admitsTCP_serving fromOutside_addressed rfl).mpr (hallowed _ o lookupHost)
  · exact (admitsUDP_serving fromOutside_addressed).mpr (hallowed _ o lookupHost)

end TunnnejiTail.Netstack
