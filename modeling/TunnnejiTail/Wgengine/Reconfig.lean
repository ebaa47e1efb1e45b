import TunnnejiTail.Net.Netip
import TunnnejiTail.Go.Keyed
import TunnnejiTail.Types.Key

/-! Reconfiguration of the userspace engine. What was last configured is remembered so that only
what changed is configured again; the router's and the DNS configuration are only compared. -/
namespace TunnnejiTail.Wgengine
open Go Netip TunnnejiTail.Types

structure Peer where
  publicKey : NodePublic
  discoKey : DiscoPublic
  allowedIPs : List Prefix
  v4MasqAddr : Option Addr
  v6MasqAddr : Option Addr
  isJailed : Bool
  persistentKeepalive : ℕ
  deriving DecidableEq

structure Config where
  privateKey : Raw32
  addresses : List Prefix
  peers : List Peer
  deriving DecidableEq

structure Engine (R D : Type) where
  lastCfgFull : Config
  lastRouter : Option R
  lastDNSConfig : Option D
  lastIsSubnetRouter : Bool
  tsmpLearnedDisco : GoMap NodePublic DiscoPublic

/-- The fallible steps; with the first, the peers given are removed from the device. -/
inductive Step
  | wireguard (restarted : List NodePublic)
  | router
  | dns
  | vpn
  deriving DecidableEq

/-- What a call reads besides its arguments, and which of its steps fail. -/
structure Env where
  listenPortChanged : Bool := false
  peerMTUChanged : Bool := false
  netlogChanged : Bool := false
  isSubnetRouter : Bool := false
  hasBird : Bool := false
  birdFails : Bool := false
  fails : Step → Bool := fun _ => false

inductive Result
  | done
  | errNoChanges
  | failed (s : Step)
  deriving DecidableEq

/-- The steps in order up to the first one that fails. -/
def execute (fails : Step → Bool) : List Step → List Step × Option Step
  | [] => ([],none)
  | s::plan => if fails s then ([s],some s) else (s::(execute fails plan).1,(execute fails plan).2)

lemma execute_failed (fails : Step → Bool) (plan : List Step) :
    (execute fails plan).2=none ↔ ∀ s ∈ plan, fails s=false := by
  induction plan with
  | nil => simp [execute]
  | cons s plan ih =>
    rw [execute,List.forall_mem_cons,← ih]
    cases fails s <;> simp

/-- A peer whose disco key differs from the last one has restarted, unless the key was learned over
its own connection. -/
def discoStep (prevEP : GoMap NodePublic DiscoPublic)
    (st : GoMap NodePublic DiscoPublic × List NodePublic) (p : Peer) :
    GoMap NodePublic DiscoPublic × List NodePublic :=
  if p.discoKey.isZero then st
  else if (prevEP.lookup p.publicKey).all (fun old => old=p.discoKey) then st
  else match st.1.lookup p.publicKey with
    | none => (st.1,st.2++[p.publicKey])
    | some learned =>
      (st.1.erase p.publicKey,if learned=p.discoKey then st.2 else st.2++[p.publicKey])

def discoChanged (last cfg : Config) (tsmp : GoMap NodePublic DiscoPublic) :
    GoMap NodePublic DiscoPublic × List NodePublic :=
  let prevEP := fill Peer.publicKey (fun p => if p.discoKey.isZero then none else some p.discoKey)
    last.peers ∅
  cfg.peers.foldl (discoStep prevEP) (tsmp,[])

/-- What the device, the router and the DNS manager run with. -/
structure Host (R D : Type) where
  wireguard : Config
  router : Option R
  dns : Option D

section
variable {R D : Type} (c : Config × R × D × Env)

def asked : Host R D := ⟨c.1,some c.2.1,some c.2.2.1⟩

/-- What a step leaves the host with. -/
def configured (h : Host R D) : Step → Host R D
  | .wireguard _ => { h with wireguard := c.1 }
  | .router => { h with router := some c.2.1 }
  | .dns => { h with dns := some c.2.2.1 }
  | .vpn => h

def Engine.remembered (e : Engine R D) : Host R D := ⟨e.lastCfgFull,e.lastRouter,e.lastDNSConfig⟩

end

namespace Engine
variable {R D : Type} [DecidableEq R] [DecidableEq D]

def plan (e : Engine R D) (cfg : Config) (routerCfg : R) (dnsCfg : D) : List Step :=
  let routerChanged := e.lastRouter≠some routerCfg
  (if e.lastCfgFull≠cfg then
    [.wireguard (discoChanged e.lastCfgFull cfg e.tsmpLearnedDisco).2.dedup] else []) ++
  (if routerChanged then [.router] else []) ++
  if routerChanged ∨ e.lastDNSConfig≠some dnsCfg then [.dns,.vpn] else []

variable (e : Engine R D) (cfg : Config) (routerCfg : R) (dnsCfg : D) (env : Env)

def unchanged : Bool :=
  e.plan cfg routerCfg dnsCfg=[] ∧ ¬env.listenPortChanged ∧ env.isSubnetRouter=e.lastIsSubnetRouter ∧
    ¬env.peerMTUChanged ∧ ¬env.netlogChanged

/-- What a call does when something changed. -/
def configure : Engine R D × List Step × Result :=
  let tsmp := if e.lastCfgFull=cfg then e.tsmpLearnedDisco
    else (discoChanged e.lastCfgFull cfg e.tsmpLearnedDisco).1
  let e2 : Engine R D := ⟨cfg,some routerCfg,some dnsCfg,e.lastIsSubnetRouter,tsmp⟩
  let e3 := { e2 with
    tsmpLearnedDisco := deleteWhere .asStored (fun k _ => k ∉ cfg.peers.map Peer.publicKey) tsmp }
  let e4 := { e3 with lastIsSubnetRouter :=
    if env.hasBird ∧ ¬env.birdFails then env.isSubnetRouter else e.lastIsSubnetRouter }
  let ran := execute env.fails (e.plan cfg routerCfg dnsCfg)
  match ran.2 with
  | none => (e4,ran.1,.done)
  | some (.wireguard pubs) => (e2,ran.1,.failed (.wireguard pubs))
  | some s => (e3,ran.1,.failed s)

/-- A call: the engine after it, the steps it executed and what it returned. -/
def reconfig : Engine R D × List Step × Result :=
  if e.unchanged cfg routerCfg dnsCfg env then (e,[],.errNoChanges)
  else e.configure cfg routerCfg dnsCfg env

/-- A next call with equal arguments executes the step that failed, whatever it finds else. -/
def Retried : Prop :=
  ∀ s, (e.reconfig cfg routerCfg dnsCfg env).2.2=.failed s → ∀ env',
    s ∈ ((e.reconfig cfg routerCfg dnsCfg env).1.reconfig cfg routerCfg dnsCfg env').2.1

lemma plan_remembered (h : e.lastCfgFull=cfg) (hr : e.lastRouter=some routerCfg)
    (hd : e.lastDNSConfig=some dnsCfg) : e.plan cfg routerCfg dnsCfg=[] := by
  simp [plan,h,hr,hd]

lemma ran_of_plan (h : e.plan cfg routerCfg dnsCfg=[]) :
    (e.reconfig cfg routerCfg dnsCfg env).2.1=[] := by
  unfold reconfig
  split_ifs
  · rfl
  · simp only [configure,h,execute]

lemma plan_configure : (e.configure cfg routerCfg dnsCfg env).1.plan cfg routerCfg dnsCfg=[] := by
  unfold configure
  dsimp only
  split <;> exact plan_remembered _ cfg routerCfg dnsCfg rfl rfl rfl

lemma configure_failed (s : Step) : (e.configure cfg routerCfg dnsCfg env).2.2=.failed s ↔
    (execute env.fails (e.plan cfg routerCfg dnsCfg)).2=some s := by
  unfold configure
  dsimp only
  split <;> simp_all

/-- Everything is remembered as configured before a step can fail: a failed step is never retried. -/
theorem reconfig_retried_iff : e.Retried cfg routerCfg dnsCfg env ↔
    ∀ s ∈ e.plan cfg routerCfg dnsCfg, env.fails s=false := by
  rw [← execute_failed]
  cases hu : e.unchanged cfg routerCfg dnsCfg env with
  | true =>
    have hplan : e.plan cfg routerCfg dnsCfg=[] := (of_decide_eq_true hu).1
    refine iff_of_true (fun s hs => ?_) (by rw [hplan]; rfl)
    rw [reconfig,hu] at hs
    cases hs
  | false =>
    have hcall : e.reconfig cfg routerCfg dnsCfg env=e.configure cfg routerCfg dnsCfg env :=
      if_neg (by simp [hu])
    unfold Retried
    simp only [hcall,configure_failed,ran_of_plan _ _ _ _ _ (e.plan_configure cfg routerCfg dnsCfg env)]
    rw [Option.eq_none_iff_forall_ne_some]
    exact ⟨fun h s hs => List.not_mem_nil (h s hs env),fun h s hs => absurd hs (h s)⟩

/-- The router refuses its first configuration; the second call finds nothing changed. -/
theorem router_failure_forgotten :
    let e : Engine ℕ ℕ := ⟨⟨.fill 0,[],[]⟩,none,none,false,∅⟩
    let first := e.reconfig ⟨.fill 1,[],[]⟩ 0 0 { fails := fun s => s=.router }
    first.2.2=.failed .router ∧ (first.1.reconfig ⟨.fill 1,[],[]⟩ 0 0 {}).2=([],.errNoChanges) := by
  decide +kernel

variable (x : Engine R D × Host R D) (c : Config × R × D × Env)

/-- A call whose steps succeed, with what they do to the host. -/
def call : Engine R D × Host R D :=
  let r := x.1.reconfig c.1 c.2.1 c.2.2.1 { c.2.2.2 with fails := fun _ => false }
  (r.1,r.2.1.foldl (configured c) x.2)

lemma execute_all (plan : List Step) : execute (fun _ => false) plan=(plan,none) := by
  induction plan with
  | nil => rfl
  | cons s plan ih => rw [execute,ih]; rfl

lemma call_remembered : (call (e,e.remembered) c).1.remembered=asked c ∧ (call (e,e.remembered) c).2=asked c := by
  have hplan : (e.plan c.1 c.2.1 c.2.2.1).foldl (configured c) e.remembered=asked c := by
    by_cases hw : e.lastCfgFull=c.1 <;> by_cases hr : e.lastRouter=some c.2.1 <;>
      by_cases hd : e.lastDNSConfig=some c.2.2.1 <;> simp [plan,remembered,configured,asked,hw,hr,hd]
  unfold call reconfig
  split_ifs with hu
  · rw [(of_decide_eq_true hu).1] at hplan
    exact ⟨hplan,hplan⟩
  · simp only [configure,execute_all]
    exact ⟨rfl,hplan⟩

/-- Though only what changed is configured, after any calls whose steps succeed the host runs with what the
last one asked for. -/
theorem reconfig_applied (calls : List (Config × R × D × Env)) :
    (call (calls.foldl call (e,e.remembered)) c).2=asked c := by
  induction calls generalizing e with
  | nil => exact (e.call_remembered c).2
  | cons d calls ih =>
    obtain ⟨he,hh⟩ := e.call_remembered d
    rw [List.foldl_cons,← ih (call (e,e.remembered) d).1,he,← hh]

end Engine
end TunnnejiTail.Wgengine
