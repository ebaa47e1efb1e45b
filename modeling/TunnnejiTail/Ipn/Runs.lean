import TunnnejiTail.Cli.Coherence
import TunnnejiTail.Go.Tasks
import TunnnejiTail.Ipn.LocalBackend
import TunnnejiTail.Netstack.Effects

/-! Runs of the program that share one state file. The serve config outlives the run that
wrote it; whitelists and passwords are those of the current run. -/
namespace TunnnejiTail.Ipn
open Go Netip Cli Netstack List Relation LocalBackend

/-- One run: its group, the tables and the serve config made from it, how often and whether
SetServeConfig was called with success, and the backend. -/
structure Run where
  group : TunnelGroup
  tables : Tables
  config : ServeConfig
  attempts : ℕ := 0
  accepted : Bool := false
  backend : LocalBackend := {}

def Run.start (g : TunnelGroup) (o o' : MapOrder) (lookupHost : Resolver) : Run where
  group := g
  tables := portTables o lookupHost g.ports
  config := serveConfigTCP o' g.ports

def Run.netstack (run : Run) (isLocalIP : Addr → Bool) (own : InternalServices) :
    Impl TCPHandler where
  tables := run.tables
  stealthDrop := run.group.dropICMP
  isLocalIP := isLocalIP
  lb := some (run.backend.tcpHandlerForDst isLocalIP own)

structure World where
  store : StateStore := ∅
  run : Option Run := none

/-- One round of the goroutine that calls SetServeConfig. -/
def Run.trySetServeConfig (run : Run) (store : StateStore) (writeState : Bool) : World :=
  match run.backend.setServeConfig store run.config writeState with
  | none => ⟨store,some { run with attempts := run.attempts+1 }⟩
  | some (store',backend) =>
    ⟨store',some { run with
      attempts := run.attempts+1
      accepted := true
      backend := backend }⟩

/-- The steps of a run: netmaps, preferences and profiles come and go, the serve config is
reloaded or reset, SetServeConfig is tried up to 60 times when there are server ports, and a
new run starts after the last one has stopped. -/
inductive Step (mayStart : StateStore → TunnelGroup → Prop) : World → World → Prop
  | start {store env args built n g} (o o' : MapOrder) (lookupHost : Resolver)
      (parsed : parseNumbered env args=.ok built) (mem : (n,g) ∈ built) (ok : mayStart store g) :
      Step mayStart ⟨store,none⟩ ⟨store,some (.start g o o' lookupHost)⟩
  | update {store} (run : Run) (selfValid prefsValid : Bool) (profileID : Str) :
      Step mayStart ⟨store,some run⟩ ⟨store,some { run with backend := { run.backend with
        selfValid := selfValid
        prefsValid := prefsValid
        profileID := profileID } }⟩
  | reload {store} (run : Run) :
      Step mayStart ⟨store,some run⟩
        ⟨store,some { run with backend := run.backend.reloadServeConfig store }⟩
  | reset {store} (run : Run) :
      Step mayStart ⟨store,some run⟩
        ⟨store,some { run with backend := run.backend.clearServeConfig }⟩
  | setServeConfig {store} (run : Run) (writeState : Bool) (ports : run.config.entries≠[])
      (pending : run.accepted=false) (retry : run.attempts<60) :
      Step mayStart ⟨store,some run⟩ (run.trySetServeConfig store writeState)
  | stop {store} (run : Run) : Step mayStart ⟨store,some run⟩ ⟨store,none⟩

/-- A connection that is handed to a forward is for the listen port of a server entry of the
run, goes to that entry's target, and is wrapped if the entry has a password. -/
def HandsToOwnEntries (run : Run) : Prop :=
  ∀ isLocalIP own r out backDst password,
    TCPEvent.handle (.forward backDst) password ∈ acceptTCP (run.netstack isLocalIP own) r out →
    ∃ k pe, run.group.ports.lookup k=some pe ∧ pe.isServer ∧ pe.listenPort=r.localPort.toNat ∧ backDst=pe.tcpForward ∧
      (pe.password≠[] → password=some pe.password)

/-- Every forward of a config is that of a server entry of the group at the same port. -/
def Covers (g : TunnelGroup) (sc : ServeConfig) : Prop :=
  ∀ p backDst, sc.lookup p=some backDst →
    ∃ k pe, g.ports.lookup k=some pe ∧ pe.isServer ∧ pe.listenPort=p.toNat ∧ backDst=pe.tcpForward

/-- A group starts clean on a state file: the configs stored there hold forwards of its own
entries only, and its server ports fit. -/
def StartsClean (store : StateStore) (g : TunnelGroup) : Prop :=
  (∀ key sc, store.lookup key=some sc → Covers g sc) ∧ ∀ k pe, g.ports.lookup k=some pe → pe.isServer → pe.portFits

variable {g : TunnelGroup}

lemma covers_serveConfigTCP
    (hfits : ∀ k pe, g.ports.lookup k=some pe → pe.isServer → pe.portFits) (o : MapOrder) :
    Covers g (serveConfigTCP o g.ports) := by
  intro p backDst h
  obtain ⟨k,pe,hk,hs,hkey,hf⟩ := exists_of_serveConfigTCP h
  refine ⟨k,pe,hk,hs,?_,hf⟩
  rw [← hkey,key_toNat (hfits k pe hk hs)]

/-- What holds of a run and the state file at every step after a clean start. -/
structure RunInv (store : StateStore) (run : Run) : Prop where
  parsed : ∃ env args built n, parseNumbered env args=.ok built ∧ (n,run.group) ∈ built
  tables : ∃ o lookupHost, run.tables=portTables o lookupHost run.group.ports
  fits : ∀ k pe, run.group.ports.lookup k=some pe → pe.isServer → pe.portFits
  config : Covers run.group run.config
  stored : ∀ key sc, store.lookup key=some sc → Covers run.group sc
  loaded : ∀ sc, run.backend.serveConfig=some sc → Covers run.group sc

def Inv (w : World) : Prop := ∀ run, w.run=some run → RunInv w.store run

section
variable {store : StateStore} {run : Run}

lemma RunInv.start {env : Env} {args : List Str} {built : List (ℤ × TunnelGroup)} {n : ℤ}
    {g : TunnelGroup} (o o' : MapOrder) (lookupHost : Resolver)
    (hparse : parseNumbered env args=.ok built) (hmem : (n,g) ∈ built)
    (hclean : StartsClean store g) : RunInv store (.start g o o' lookupHost) where
  parsed := ⟨env,args,built,n,hparse,hmem⟩
  tables := ⟨o,lookupHost,rfl⟩
  fits := hclean.2
  config := covers_serveConfigTCP hclean.2 o'
  stored := hclean.1
  loaded := fun sc h => by cases h

variable (h : RunInv store run)
include h

lemma RunInv.withBackend {backend : LocalBackend}
    (hloaded : ∀ sc, backend.serveConfig=some sc → Covers run.group sc) :
    RunInv store { run with backend := backend } :=
  ⟨h.parsed,h.tables,h.fits,h.config,h.stored,hloaded⟩

lemma RunInv.reload {b : LocalBackend} (hb : b.serveConfig=run.backend.serveConfig) :
    ∀ sc, (b.reloadServeConfig store).serveConfig=some sc → Covers run.group sc := by
  intro sc hsc
  obtain hold | ⟨key,hkey⟩ := serveConfig_reload hsc
  · exact h.loaded sc (hb ▸ hold)
  · exact h.stored key sc hkey

lemma RunInv.insert (key : Str) :
    RunInv (store.insert key run.config) run where
  parsed := h.parsed
  tables := h.tables
  fits := h.fits
  config := h.config
  stored := by
    intro key' sc hsc
    rcases of_lookup_insert hsc with ⟨rfl,rfl⟩ | ⟨-,hsc⟩
    · exact h.config
    · exact h.stored key' sc hsc
  loaded := h.loaded

lemma RunInv.trySetServeConfig (writeState : Bool) :
    Inv (run.trySetServeConfig store writeState) := by
  intro run' hrun'
  cases hset : run.backend.setServeConfig store run.config writeState with
  | none =>
    simp only [Run.trySetServeConfig,hset] at hrun' ⊢
    cases hrun'
    exact ⟨h.parsed,h.tables,h.fits,h.config,h.stored,h.loaded⟩
  | some q =>
    obtain ⟨store',backend⟩ := q
    simp only [Run.trySetServeConfig,hset] at hrun' ⊢
    cases hrun'
    rw [LocalBackend.setServeConfig] at hset
    split_ifs at hset
    cases hset
    have hins := h.insert (serveConfigKey run.backend.profileID)
    exact ⟨h.parsed,h.tables,h.fits,h.config,hins.stored,hins.reload rfl⟩

end

lemma inv_step {w w' : World} (hstep : Step StartsClean w w') (h : Inv w) : Inv w' := by
  cases hstep with
  | start o o' lookupHost hparse hmem hclean =>
    intro run hrun
    cases hrun
    exact .start o o' lookupHost hparse hmem hclean
  | update run selfValid prefsValid profileID =>
    intro run' hrun'
    cases hrun'
    exact (h run rfl).withBackend (h run rfl).loaded
  | reload run =>
    intro run' hrun'
    cases hrun'
    exact (h run rfl).withBackend ((h run rfl).reload rfl)
  | reset run =>
    intro run' hrun'
    cases hrun'
    exact (h run rfl).withBackend fun sc hsc => by cases hsc
  | setServeConfig run writeState _ _ _ => exact (h run rfl).trySetServeConfig writeState
  | stop run =>
    intro run' hrun'
    cases hrun'

variable {run : Run}

lemma RunInv.handsToOwnEntries {store : StateStore} (h : RunInv store run) :
    HandsToOwnEntries run := by
  intro isLocalIP own r out backDst password hmem
  obtain ⟨-,hhandler,hpassword⟩ := handle_mem_acceptTCP.mp ⟨out,hmem⟩
  have hforward : run.backend.tcpHandlerForDst isLocalIP own ⟨r.clientRemoteIP,r.remotePort⟩
      ⟨r.localIP,r.localPort⟩=some (.forward backDst) := hhandler
  obtain ⟨sc,hsc,hl⟩ := serveConfig_of_tcpHandlerForDst hforward
  obtain ⟨k,pe,hk,hs,hport,htarget⟩ := h.loaded sc hsc r.localPort backDst hl
  refine ⟨k,pe,hk,hs,hport,htarget,fun hne => ?_⟩
  obtain ⟨env,args,built,n,hparse,hg⟩ := h.parsed
  obtain ⟨st,ha⟩ := exists_accepted hparse
  obtain ⟨o,lookupHost,htables⟩ := h.tables
  have hkey : pe.key=r.localPort := by
    apply UInt16.toNat_inj.mp
    have hnat := key_toNat (h.fits k pe hk hs)
    omega
  have hpolicy := congrArg PortPolicy.password
    (ha.policyAt_key hg h.fits o .asStored lookupHost hk hs)
  have hvalue : pe.passwordValue=some pe.password := by simp [PortEntry.passwordValue,hs,hne]
  rw [hpassword,← hkey]
  change run.tables.passwordForPort.lookup pe.key=_
  rw [htables,← hvalue]
  exact hpolicy

/-- In every state of every sequence of clean starts, connections are handed to the targets of
the current run's own entries, and wrapped when those have a password. -/
theorem runs_hand_to_own_entries {w : World} (h : Relation.ReflTransGen (Step StartsClean) {} w)
    {run : Run} (hrun : w.run=some run) : HandsToOwnEntries run := by
  have hinv : Inv w := reachable_invariant h (fun run hrun => by cases hrun)
    fun _ _ hstep => inv_step hstep
  exact (hinv run hrun).handsToOwnEntries

/-- The first run serves port 8080, the second only listens locally. -/
def serverRun : List Str := ["-K","k","-S","8080:10.0.0.1"]

def clientRun : List Str := ["-K","k","-C","9000:10.0.0.9"]

def servedConfig : ServeConfig := (∅ : ServeConfig).insert 8080 "10.0.0.1:8080"

def loggedIn (sc : Option ServeConfig) : LocalBackend := ⟨true,true,"p",sc,sc⟩

def servedStore : StateStore := (∅ : StateStore).insert (serveConfigKey "p") servedConfig

lemma reload_loggedIn : (loggedIn none).reloadServeConfig servedStore=loggedIn (some servedConfig) := by
  have hl : servedStore.lookup (serveConfigKey (loggedIn none).profileID)=some servedConfig :=
    AList.lookup_insert _
  simp only [reloadServeConfig,hl]
  rfl

/-- The first run after its call of SetServeConfig. -/
def serving8080 (g : TunnelGroup) : Run where
  group := g
  tables := portTables .asStored (fun _ => none) g.ports
  config := servedConfig
  attempts := 1
  accepted := true
  backend := loggedIn (some servedConfig)

variable {built : List (ℤ × TunnelGroup)} {n : ℤ}

lemma reaches_serving8080 {mayStart : StateStore → TunnelGroup → Prop}
    (hparse : parseNumbered .noFiles serverRun=.ok built) (hg : (n,g) ∈ built)
    (hconfig : serveConfigTCP .asStored g.ports=servedConfig) (hok : mayStart ∅ g) :
    ReflTransGen (Step mayStart) {} ⟨servedStore,some (serving8080 g)⟩ := by
  let run : Run := { Run.start g .asStored .asStored (fun _ => none) with backend := loggedIn none }
  have hstart : Step mayStart {} ⟨∅,some (.start g .asStored .asStored fun _ => none)⟩ :=
    .start .asStored .asStored (fun _ => none) hparse hg hok
  have hupdate : Step mayStart ⟨∅,some (.start g .asStored .asStored fun _ => none)⟩ ⟨∅,some run⟩ :=
    .update _ true true "p"
  have hset : run.trySetServeConfig ∅ true=⟨servedStore,some (serving8080 g)⟩ := by
    have hok : (loggedIn none).setServeConfig ∅ servedConfig true =
        some (servedStore,(loggedIn none).reloadServeConfig servedStore) := rfl
    simp only [run,Run.trySetServeConfig,Run.start,hconfig,hok,reload_loggedIn]
    rfl
  have hports : run.config.entries≠[] := by
    change (serveConfigTCP .asStored g.ports).entries≠[]
    rw [hconfig]
    decide
  have hlast : Step mayStart ⟨∅,some run⟩ (run.trySetServeConfig ∅ true) :=
    .setServeConfig run true hports rfl (show 0<60 by decide)
  rw [hset] at hlast
  exact .tail (.tail (.single hstart) hupdate) hlast

theorem runs_hand_to_own_entries_first :
    ∃ w run, Relation.ReflTransGen (Step StartsClean) {} w ∧ w.run=some run ∧
      run.backend.serveConfig=some servedConfig ∧ HandsToOwnEntries run := by
  have heval : observe (fun g => decide ((serveConfigTCP .asStored g.ports).entries=servedConfig.entries ∧
      (rangeEntries .asStored g.ports).map (·.listenPort)=[8080])) .noFiles serverRun =
      .ok [(-1,true)] := by decide +kernel
  obtain ⟨built,g,hb,hg,hgroup⟩ := exists_group_of_observe heval mem_cons_self
  obtain ⟨hconfig,hports⟩ := of_decide_eq_true hgroup
  have hclean : StartsClean ∅ g := by
    refine ⟨fun key sc h => ?_,fun k pe hk _ => ?_⟩
    · simp at h
    · have hmem := map_mem_rangeEntries (·.listenPort) .asStored hk
      rw [hports,mem_singleton] at hmem
      rw [PortEntry.portFits,hmem]
      decide
  have hreach := reaches_serving8080 hb hg (AList.ext hconfig) hclean
  exact ⟨_,_,hreach,rfl,rfl,runs_hand_to_own_entries hreach rfl⟩

/-- The second run, which has no server port, after its netmap arrived. -/
def afterRestart (g : TunnelGroup) : Run :=
  { Run.start g .asStored .asStored fun _ => none with backend := loggedIn (some servedConfig) }

lemma reaches_afterRestart (h : ReflTransGen (Step fun _ _ => True) {} ⟨servedStore,some run⟩)
    (hparse : parseNumbered .noFiles clientRun=.ok built) (hg : (n,g) ∈ built) :
    ReflTransGen (Step fun _ _ => True) {} ⟨servedStore,some (afterRestart g)⟩ := by
  let run' : Run := { Run.start g .asStored .asStored (fun _ => none) with backend := loggedIn none }
  have hstop : Step (fun _ _ => True) ⟨servedStore,some run⟩ ⟨servedStore,none⟩ := .stop run
  have hstart : Step (fun _ _ => True) ⟨servedStore,none⟩
      ⟨servedStore,some (.start g .asStored .asStored fun _ => none)⟩ :=
    .start .asStored .asStored (fun _ => none) hparse hg trivial
  have hupdate : Step (fun _ _ => True) ⟨servedStore,some (.start g .asStored .asStored fun _ => none)⟩
      ⟨servedStore,some run'⟩ := .update _ true true "p"
  have hreload : Step (fun _ _ => True) ⟨servedStore,some run'⟩
      ⟨servedStore,some { run' with backend := (loggedIn none).reloadServeConfig servedStore }⟩ :=
    .reload run'
  rw [reload_loggedIn] at hreload
  exact .tail (.tail (.tail (.tail h hstop) hstart) hupdate) hreload

def toPort8080 : TransportEndpointID := ⟨8080,.len4 0x64400001#32,40000,.len4 0x64400002#32⟩

/-- The second run has no server port, and port 8080 still leads to the first run's target. -/
theorem forward_outlives_its_run :
    ∃ w run, Relation.ReflTransGen (Step fun _ _ => True) {} w ∧ w.run=some run ∧
      (∀ k pe, run.group.ports.lookup k=some pe → pe.isServer=false) ∧
      TCPEvent.handle (.forward "10.0.0.1:8080") none ∈
        acceptTCP (run.netstack (fun _ => true) ⟨fun _ => false,fun _ => false⟩) toPort8080
          ⟨true,true,true,true⟩ ∧
      ¬HandsToOwnEntries run := by
  have heval : observe (fun g => (serveConfigTCP .asStored g.ports).entries) .noFiles serverRun =
      .ok [(-1,servedConfig.entries)] := by decide +kernel
  obtain ⟨built,g,hb,hg,hconfig⟩ := exists_group_of_observe heval mem_cons_self
  have heval' : observe (fun g => decide ((rangeEntries .asStored g.ports).map (·.isServer)=[false] ∧
        acceptTCP ((afterRestart g).netstack (fun _ => true) ⟨fun _ => false,fun _ => false⟩)
          toPort8080 ⟨true,true,true,true⟩=[.complete false,.handle (.forward "10.0.0.1:8080") none]))
      .noFiles clientRun=.ok [(-1,true)] := by decide +kernel
  obtain ⟨built',g',hb',hg',hgroup⟩ := exists_group_of_observe heval' mem_cons_self
  obtain ⟨hservers,htrace⟩ := of_decide_eq_true hgroup
  have hclient : ∀ k pe, g'.ports.lookup k=some pe → pe.isServer=false := by
    intro k pe hk
    have hmem := map_mem_rangeEntries (·.isServer) .asStored hk
    rw [hservers,mem_singleton] at hmem
    exact hmem
  have hreach := reaches_afterRestart (reaches_serving8080 hb hg (AList.ext hconfig) trivial)
    hb' hg'
  have hhandle : TCPEvent.handle (.forward "10.0.0.1:8080") none ∈
      acceptTCP ((afterRestart g').netstack (fun _ => true) ⟨fun _ => false,fun _ => false⟩) toPort8080
        ⟨true,true,true,true⟩ := by
    rw [htrace]
    decide
  refine ⟨_,_,hreach,rfl,hclient,hhandle,fun hright => ?_⟩
  obtain ⟨k,pe,hk,hs,-⟩ := hright _ _ _ _ _ _ hhandle
  rw [hclient k pe hk] at hs
  cases hs

end TunnnejiTail.Ipn
