import Mathlib.Data.List.Sort
import TunnnejiTail.Go.Maps
import TunnnejiTail.Cli.Flags
import TunnnejiTail.Cli.Mapping

/-! parseTunnelArgs: the flag loop, the inheritance passes, validation and the construction
of the tunnel groups. The file system enters through os.Stat and the runtime through the
order of each range over a map. The -D flag only turns logging on and is skipped. -/
namespace TunnnejiTail.Cli
open Go Netip

structure RawEntry where
  direction : Direction
  mapping : Str
  deriving DecidableEq

structure RawGroup where
  authKey : Str := []
  authKeySet : Bool := false
  stateFile : Str := []
  stateFileSet : Bool := false
  hostname : Str := []
  hostnameSet : Bool := false
  entries : GoMap Str (List RawEntry) := ∅
  accepts : GoMap Str Str := ∅
  passwords : GoMap Str Str := ∅

structure ParseState where
  raw : GoMap ℤ RawGroup := ∅
  lastAuthKey : Str := []
  lastStateFile : Str := []
  lastHostname : Str := []
  inheritedPasswords : GoMap Str Str := ∅
  inheritedAccepts : GoMap Str Str := ∅

namespace ParseState

def getGroup (st : ParseState) (n : ℤ) : RawGroup := (st.raw.lookup n).getD {}

def setGroup (st : ParseState) (n : ℤ) (g : RawGroup) : ParseState :=
  { st with raw := st.raw.insert n g }

end ParseState

def RawGroup.addMapping (g : RawGroup) (direction : Direction) (sub mapping : Str) : RawGroup :=
  let key := direction.letter++sub
  { g with entries :=
      g.entries.insert key ((g.entries.lookup key).getD []++[⟨direction,mapping⟩]) }

/-- The effect of one flag and its value in the loop of parseTunnelArgs. -/
def applyFlag (st : ParseState) (f : Flag) : Except Str ParseState :=
  let n := f.groupNum
  let g := st.getGroup n
  let key := dirString f.dir++f.sub
  match f.name with
  | .K =>
    if g.authKey≠[] then .error ("duplicate -K for group " ++ itoa n)
    else .ok { st.setGroup n { g with authKey := f.value, authKeySet := true } with
      lastAuthKey := f.value }
  | .T =>
    if g.stateFile≠[] then .error ("duplicate -T for group " ++ itoa n)
    else if st.lastStateFile≠[] ∧ f.value=st.lastStateFile then
      .error "duplicate -T value (same file already set)"
    else .ok { st.setGroup n { g with stateFile := f.value, stateFileSet := true } with
      lastStateFile := f.value }
  | .H =>
    if g.hostnameSet then .error ("duplicate -H for group " ++ itoa n)
    else .ok { st.setGroup n { g with hostname := f.value, hostnameSet := true } with
      lastHostname := if n=noNumber then f.value else st.lastHostname }
  | .S => .ok (st.setGroup n (g.addMapping .server f.sub f.value))
  | .C => .ok (st.setGroup n (g.addMapping .client f.sub f.value))
  | .A =>
    if (g.accepts.lookup key).isSome then
      .error ("duplicate -A" ++ dirString f.dir++f.sub ++ " for group " ++ itoa n)
    else .ok { st.setGroup n { g with accepts := g.accepts.insert key f.value } with
      inheritedAccepts :=
        if n=noNumber then st.inheritedAccepts.insert key f.value else st.inheritedAccepts }
  | .P =>
    if (g.passwords.lookup key).isSome then
      .error ("duplicate -P" ++ dirString f.dir++f.sub ++ " for group " ++ itoa n)
    else .ok { st.setGroup n { g with passwords := g.passwords.insert key f.value } with
      inheritedPasswords :=
        if n=noNumber then st.inheritedPasswords.insert key f.value else st.inheritedPasswords }

def flagLoop (st : ParseState) : List Str → Except Str ParseState
  | [] => .ok st
  | arg::rest =>
    if arg = "-D" then flagLoop st rest
    else if arg.head? ≠ some '-' then .error ("unexpected argument: " ++ arg)
    else match FlagName.ofBase (parseFlag arg).base with
      | none => .error ("unknown flag: " ++ arg)
      | some name =>
        if name=.A ∧ (parseFlag arg).dir=none then
          .error "-A requires direction: use -AS or -AC"
        else match rest with
          | [] => .error ("-" ++ name.letter ++ " requires a value")
          | value::rest' =>
            match applyFlag st ⟨name,(parseFlag arg).groupNum,(parseFlag arg).sub,
                (parseFlag arg).dir,value⟩ with
            | .error e => .error e
            | .ok st' => flagLoop st' rest'

/-- The range statements of parseTunnelArgs; the ones in the loop over the groups run once
for each group. -/
inductive RangeSite
  | inheritedPasswords
  | inheritedAccepts
  | entries (n : ℤ)
  | ports (n : ℤ)
  deriving DecidableEq

structure Env where
  stat : Str → Bool
  order : RangeSite → MapOrder

/-- An environment without any file, in which maps are visited as stored. -/
def Env.noFiles : Env := ⟨fun _ => false,fun _ => .asStored⟩

/-- The groups in increasing order of their numbers, as the loops over nums visit them. -/
abbrev Groups := List (ℤ × RawGroup)

def ParseState.nums (st : ParseState) : List ℤ := st.raw.keys.insertionSort (· ≤ ·)

def ParseState.groups (st : ParseState) : Groups := st.nums.map fun n => (n,st.getGroup n)

def inheritDefaults (st : ParseState) (groups : Groups) : Groups :=
  groups.map fun (n,rg) =>
    if n=0 then (n,{ rg with
      authKey := if rg.authKey=[] then st.lastAuthKey else rg.authKey
      stateFile := if rg.stateFile=[] then st.lastStateFile else rg.stateFile })
    else (n,rg)

def setIfAbsent (m : GoMap Str Str) (p : Str × Str) : GoMap Str Str :=
  if (m.lookup p.1).isSome then m else m.insert p.1 p.2

def inheritPasswords (env : Env) (st : ParseState) (groups : Groups) : Groups :=
  (range (env.order .inheritedPasswords) st.inheritedPasswords).foldl (fun groups p =>
    groups.map fun (n,rg) =>
      if n=noNumber then (n,rg) else (n,{ rg with passwords := setIfAbsent rg.passwords p })) groups

def inheritAccepts (env : Env) (st : ParseState) (groups : Groups) : Groups :=
  (range (env.order .inheritedAccepts) st.inheritedAccepts).foldl (fun groups p =>
    groups.map fun (n,rg) =>
      if n=noNumber then (n,rg) else (n,{ rg with accepts := setIfAbsent rg.accepts p })) groups

def inheritHostname (st : ParseState) (groups : Groups) : Groups :=
  if st.lastHostname≠[] then
    groups.map fun (n,rg) =>
      if n=noNumber ∨ rg.hostnameSet then (n,rg) else (n,{ rg with hostname := st.lastHostname })
  else groups

def inherit (env : Env) (st : ParseState) : Groups :=
  inheritHostname st (inheritAccepts env st (inheritPasswords env st (inheritDefaults st st.groups)))

/-- A group counts as active when it has mappings or its own -K or -T. -/
def RawGroup.active (rg : RawGroup) : Bool :=
  !rg.entries.entries.isEmpty || rg.authKeySet || rg.stateFileSet

def coexistenceError (groups : Groups) : Bool :=
  groups.any (fun (n,rg) => n=noNumber && rg.active) && groups.any (fun (n,rg) => 0≤n && rg.active)

def defaultStateFile : Str := "ttstate.json"

def stateFileNotFound (n : ℤ) (file : Str) : Str :=
  if n=noNumber then "no-number group: state file " ++ file ++ " not found, requires -K"
  else "group " ++ itoa n ++ ": state file " ++ file ++ " not found, requires -K" ++ itoa n

def validateGroup (env : Env) : ℤ × RawGroup → Except Str (ℤ × RawGroup)
  | (n,rg) =>
    let noEntries := rg.entries.entries.isEmpty
    let groupExists := rg.authKeySet || rg.stateFileSet ||
      (if 0<n then rg.authKey≠[] || rg.stateFile≠[] else !noEntries)
    let file := if rg.stateFile=[] then defaultStateFile else rg.stateFile
    if n=noNumber ∧ noEntries then .ok (n,rg)
    else if !groupExists then
      .error ("group " ++ itoa n ++ ": no -K" ++ itoa n ++ " or -T" ++ itoa n)
    else if rg.authKeySet && rg.stateFileSet && env.stat rg.stateFile then
      .error ("group " ++ itoa n ++ ": state file " ++ rg.stateFile ++ " already exists, -K" ++
        itoa n ++ " is not needed")
    else if noEntries then
      .error (if n=noNumber then "no-number group: missing -S or -C" else "group " ++ itoa n ++ ": missing -S or -C")
    else if rg.authKey=[] ∧ !env.stat file then .error (stateFileNotFound n file)
    else .ok (n,{ rg with stateFile := file })

structure PortEntry where
  isServer : Bool
  listenPort : ℤ
  targetAddr : Str
  targetPort : ℤ
  accept : List Prefix
  password : Str
  deriving DecidableEq

structure TunnelGroup where
  authKey : Str
  stateFile : Str
  hostname : Str
  ports : GoMap Str PortEntry
  dropICMP : Bool

def firstKey (m : GoMap Str Str) (keys : List Str) : Option (Str × Str) :=
  keys.findSome? fun key => (m.lookup key).map fun v => (key,v)

def acceptKeys (d : Direction) (sub : Str) : List Str := [d.letter++sub,d.letter]

def passKeys (d : Direction) (sub : Str) : List Str := [d.letter++sub,d.letter,sub,[]]

def lookupAccept (n : ℤ) (rg : RawGroup) (d : Direction) (sub : Str) : Except Str (List Prefix) :=
  match firstKey rg.accepts (acceptKeys d sub) with
  | none => .ok []
  | some (key,ipStr) =>
    match parseIPList ipStr with
    | .ok prefixes => .ok prefixes
    | .error e => .error ("group " ++ itoa n ++ " -A" ++ key ++ ": " ++ e)

def lookupPassword (rg : RawGroup) (d : Direction) (sub : Str) : Str :=
  ((firstKey rg.passwords (passKeys d sub)).map Prod.snd).getD []

structure BuildState where
  usedPorts : GoMap Str (Direction × Str) := ∅
  ports : GoMap Str PortEntry := ∅

def portsKey (d : Direction) (sub : Str) (listenPort : ℤ) : Str := d.letter++sub++itoa listenPort

def usedKey (d : Direction) (listenPort : ℤ) : Str := d.letter++itoa listenPort

/-- One mapping of a group: parse it, refuse a listen port already used in its direction,
look up its whitelist and password and store the entry. -/
def addEntry (n : ℤ) (rg : RawGroup) (st : BuildState) : Str × RawEntry → Except Str BuildState
  | (sub,entry) =>
    let d := entry.direction
    match parsePortMapping entry.mapping with
    | .error e => .error ("group " ++ itoa n ++ " -" ++ d.letter++sub ++ ": " ++ e)
    | .ok (listenPort,addr,targetPort) =>
      match st.usedPorts.lookup (usedKey d listenPort) with
      | some (d',sub') =>
        .error ("group " ++ itoa n ++ ": port " ++ itoa listenPort ++ " used by both -" ++
          d'.letter++sub' ++ " and -" ++ d.letter++sub)
      | none =>
        match lookupAccept n rg d sub with
        | .error e => .error e
        | .ok accept => .ok {
            usedPorts := st.usedPorts.insert (usedKey d listenPort) (d,sub)
            ports := st.ports.insert (portsKey d sub listenPort) {
              isServer := d=.server
              listenPort := listenPort
              targetAddr := normalizeAddr addr
              targetPort := targetPort
              accept := accept
              password := lookupPassword rg d sub } }

/-- The mappings of a group in the order of the range over its entries, each with the sub
identifier that its key holds after the direction letter. -/
def mappings (o : MapOrder) (rg : RawGroup) : List (Str × RawEntry) :=
  (range o rg.entries).flatMap fun (key,entries) => entries.map fun entry => (key.tail,entry)

/-- The ICMP decision of a group: no server port, or only server ports with a password. -/
def dropICMP (o : MapOrder) (ports : GoMap Str PortEntry) : Bool :=
  let servers := ((range o ports).map Prod.snd).filter (·.isServer)
  servers.isEmpty || servers.all (·.password≠[])

def buildGroup (env : Env) : ℤ × RawGroup → Except Str (ℤ × TunnelGroup)
  | (n,rg) =>
    match (mappings (env.order (.entries n)) rg).foldlM (addEntry n rg) {} with
    | .error e => .error e
    | .ok st => .ok (n,{
        authKey := rg.authKey
        stateFile := rg.stateFile
        hostname := rg.hostname
        ports := st.ports
        dropICMP := dropICMP (env.order (.ports n)) st.ports })

/-- The groups parseTunnelArgs returns, with the numbers it builds them under. -/
def parseNumbered (env : Env) (args : List Str) : Except Str (List (ℤ × TunnelGroup)) :=
  match flagLoop {} args with
  | .error e => .error e
  | .ok st =>
    if st.raw.entries.isEmpty then .error "no arguments provided"
    else if coexistenceError (inherit env st) then
      .error "numbered groups and no-number groups (except global -A/-P) cannot coexist"
    else match (inherit env st).mapM (validateGroup env) with
      | .error e => .error e
      | .ok groups =>
        match (groups.filter fun p => !p.2.entries.entries.isEmpty).mapM (buildGroup env) with
        | .error e => .error e
        | .ok built => if built.isEmpty then .error "no -S or -C provided" else .ok built

def parseTunnelArgs (env : Env) (args : List Str) : Except Str (List TunnelGroup) :=
  (parseNumbered env args).map (List.map Prod.snd)

end TunnnejiTail.Cli
