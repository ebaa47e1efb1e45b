import TunnnejiTail.Netstack.TCP

/-! The serve part of the LocalBackend: the serve config in memory, its copy in the state
store, and the handler lookup for inbound connections. The configs of this program have TCP
forwards only; a stored config is identified with its JSON. -/
namespace TunnnejiTail.Ipn
open Go Netip

/-- The TCP part of an ipn.ServeConfig: the TCPForward string of each port. -/
abbrev ServeConfig := GoMap UInt16 Str

abbrev StateStore := GoMap Str ServeConfig

def serveConfigKey (profileID : Str) : Str := ("_serve/" : Str)++profileID

/-- The fields that decide about the serve config; a netmap has a valid self node. -/
structure LocalBackend where
  selfValid : Bool := false
  prefsValid : Bool := false
  profileID : Str := []
  lastServeConfJSON : Option ServeConfig := none
  serveConfig : Option ServeConfig := none

namespace LocalBackend

def clearServeConfig (b : LocalBackend) : LocalBackend :=
  { b with
    lastServeConfJSON := none
    serveConfig := none }

def reloadServeConfig (store : StateStore) (b : LocalBackend) : LocalBackend :=
  if !b.selfValid || !b.prefsValid || b.profileID=[] then b.clearServeConfig
  else match store.lookup (serveConfigKey b.profileID) with
    | none => b.clearServeConfig
    | some conf =>
      if b.lastServeConfJSON.map (·.entries)=some conf.entries then b
      else { b with
        lastServeConfJSON := some conf
        serveConfig := some conf }

/-- SetServeConfig without an ETag: none is an error, for want of a netmap or of the store. -/
def setServeConfig (store : StateStore) (b : LocalBackend) (config : ServeConfig)
    (writeState : Bool) : Option (StateStore × LocalBackend) :=
  if !b.selfValid then none
  else if !writeState then none
  else
    let store' := store.insert (serveConfigKey b.profileID) config
    some (store',b.reloadServeConfig store')

end LocalBackend

/-- A handler of TCPHandlerForDst: a TCPForward, or one of the node's own services. -/
inductive TCPHandler
  | forward (backDst : Str)
  | internal
  deriving DecidableEq

/-- The destinations that the node's own services take: on the service address before, and on
local addresses after the check for a local address. -/
structure InternalServices where
  onServiceIP : AddrPort → Bool
  onLocalIP : AddrPort → Bool

namespace LocalBackend

def tcpHandlerForServe (b : LocalBackend) (dport : UInt16) : Option TCPHandler :=
  match b.serveConfig.bind fun sc => sc.lookup dport with
  | none => none
  | some backDst => if backDst≠[] then some (.forward backDst) else none

def tcpHandlerForDst (b : LocalBackend) (isLocalIP : Addr → Bool) (own : InternalServices)
    (_ dst : AddrPort) : Option TCPHandler :=
  if own.onServiceIP dst then some .internal
  else if !isLocalIP dst.addr then none
  else if own.onLocalIP dst then some .internal
  else b.tcpHandlerForServe dst.port

variable {b : LocalBackend}

lemma serveConfig_of_tcpHandlerForDst {isLocalIP : Addr → Bool}
    {own : InternalServices} {src dst : AddrPort} {backDst : Str}
    (h : b.tcpHandlerForDst isLocalIP own src dst=some (.forward backDst)) :
    ∃ sc, b.serveConfig=some sc ∧ sc.lookup dst.port=some backDst := by
  rw [tcpHandlerForDst] at h
  split_ifs at h
  · cases h
  · cases h
  · unfold tcpHandlerForServe at h
    cases hsc : b.serveConfig with
    | none => simp [hsc] at h
    | some sc =>
      refine ⟨sc,rfl,?_⟩
      cases hl : sc.lookup dst.port with
      | none => simp [hsc,hl] at h
      | some backDst' =>
        simp only [hsc,Option.bind_some,hl] at h
        split_ifs at h
        cases h
        rfl

lemma serveConfig_reload {store : StateStore} {sc : ServeConfig}
    (h : (b.reloadServeConfig store).serveConfig=some sc) :
    b.serveConfig=some sc ∨ ∃ key, store.lookup key=some sc := by
  rw [reloadServeConfig] at h
  split_ifs at h
  · cases h
  · cases hl : store.lookup (serveConfigKey b.profileID) with
    | none =>
      simp only [hl] at h
      cases h
    | some conf =>
      simp only [hl] at h
      split_ifs at h
      · exact .inl h
      · cases h
        exact .inr ⟨_,hl⟩

end LocalBackend

end TunnnejiTail.Ipn
