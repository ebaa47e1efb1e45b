import TunnnejiTail.Net.Netip

/-! Reading and printing addresses: netip.ParseAddr and ParsePrefix, net.ParseIP and the
String methods. IPv4 octets and IPv6 groups are handled as the digits of the address in
base 256 and base 65536, most significant first. -/
namespace TunnnejiTail.Netip
open Go

def digitsBE (b : ℕ) : ℕ → ℕ → List ℕ
  | 0,_ => []
  | k+1,n => digitsBE b k (n/b)++[n%b]

def ofDigitsBE (b : ℕ) (ds : List ℕ) : ℕ := ds.foldl (fun acc d => acc*b+d) 0

/-- The scanner of parseIPv4Fields; a dot needs a digit on both sides, since digLen is zero
exactly at the start and after a dot. -/
def parseIPv4Loop (fields : List ℕ) (val digLen : ℕ) : Str → Option (List ℕ)
  | [] => if fields.length<3 then none else some (fields++[val])
  | c::cs =>
    if c.isDigit then
      if digLen=1 ∧ val=0 then none
      else if 255<val*10+(c.toNat-48) then none
      else parseIPv4Loop fields (val*10+(c.toNat-48)) (digLen+1) cs
    else if c = '.' then
      if digLen=0 ∨ cs=[] then none
      else if fields.length=3 then none
      else parseIPv4Loop (fields++[val]) 0 0 cs
    else none

def parseIPv4Fields (s : Str) : Option (List ℕ) := parseIPv4Loop [] 0 0 s

def parseIPv4 (s : Str) : Option Addr :=
  (parseIPv4Fields s).map fun fields => .v4 (BitVec.ofNat 32 (ofDigitsBE 256 fields))

def hexVal (c : Char) : Option ℕ :=
  if c.isDigit then some (c.toNat-48)
  else if 'a' ≤ c ∧ c ≤ 'f' then some (c.toNat-87)
  else if 'A' ≤ c ∧ c ≤ 'F' then some (c.toNat-55)
  else none

/-- Read one group: the number of hex digits, the value and what follows. A fifth digit
or a value above 16 bits is an error. -/
def readHex (off acc : ℕ) : Str → Option (ℕ × ℕ × Str)
  | [] => some (off,acc,[])
  | c::cs =>
    match hexVal c with
    | none => some (off,acc,c::cs)
    | some d =>
      if 3<off then none
      else if 65535<acc*16+d then none
      else readHex (off+1) (acc*16+d) cs

/-- The group loop of parseIPv6 with room for fuel more groups. It returns the groups read,
the position of the ellipsis among them and the unread rest. -/
def parseIPv6Loop : ℕ → List ℕ → Option ℕ → Str → Option (List ℕ × Option ℕ × Str)
  | 0,groups,ellipsis,s => some (groups,ellipsis,s)
  | fuel+1,groups,ellipsis,s =>
    match readHex 0 0 s with
    | none => none
    | some (off,acc,rest) =>
      if off=0 then none
      else match rest with
        | [] => some (groups++[acc],ellipsis,[])
        | '.'::_ =>
          -- a trailing IPv4 address takes the place of two groups
          if ellipsis=none ∧ groups.length≠6 then none
          else if 8<groups.length+2 then none
          else match parseIPv4Fields s with
            | none => none
            | some fields =>
              some (groups++digitsBE 65536 2 (ofDigitsBE 256 fields),ellipsis,[])
        | ':'::[] => none
        | ':' :: ':'::rest' =>
          if ellipsis.isSome then none
          else if rest'=[] then some (groups++[acc],some (groups.length+1),[])
          else parseIPv6Loop fuel (groups++[acc]) (some (groups.length+1)) rest'
        | ':'::rest' => parseIPv6Loop fuel (groups++[acc]) ellipsis rest'
        | _ => none

/-- The end of parseIPv6: nothing may be left over and the ellipsis must stand for at
least one group. -/
def expandEllipsis : List ℕ × Option ℕ × Str → Option (List ℕ)
  | (groups,ellipsis,s) =>
    if s≠[] then none
    else match ellipsis with
      | none => if groups.length<8 then none else some groups
      | some e =>
        if groups.length<8 then
          some (groups.take e++List.replicate (8-groups.length) 0++groups.drop e)
        else none

def parseGroups (s : Str) : Option (List ℕ) :=
  match s with
  | ':' :: ':'::rest =>
    if rest=[] then some (List.replicate 8 0)
    else (parseIPv6Loop 8 [] (some 0) rest).bind expandEllipsis
  | _ => (parseIPv6Loop 8 [] none s).bind expandEllipsis

def parseIPv6 (s : Str) : Option Addr :=
  match cut '%' s with
  | some (_,[]) => none
  | some (s',zone) => (parseGroups s').map fun gs => .v6 (BitVec.ofNat 128 (ofDigitsBE 65536 gs)) zone
  | none => (parseGroups s).map fun gs => .v6 (BitVec.ofNat 128 (ofDigitsBE 65536 gs)) []

/-- ParseAddr: the first of '.', ':' and '%' decides the family. -/
def parseAddr (s : Str) : Option Addr :=
  match s.find? fun c => c = '.' ∨ c = ':' ∨ c = '%' with
  | some '.' => parseIPv4 s
  | some ':' => parseIPv6 s
  | _ => none

/-- ParsePrefix admits no zone and no sign or leading zero in the length. -/
def parsePrefix (s : Str) : Option Prefix :=
  match cutLast '/' s with
  | none => none
  | some (a,bitsStr) =>
    match parseAddr a with
    | none => none
    | some ip =>
      if ip.hasZone then none
      else if 1<bitsStr.length ∧ ¬ ('1'≤bitsStr.headD '0' ∧ bitsStr.headD '0' ≤ '9') then none
      else (atoi bitsStr).bind (prefixFrom ip)

def parseIP (s : Str) : Option (BitVec 128) :=
  match parseAddr s with
  | none => none
  | some ip => if ip.hasZone then none else some ip.as16

def to4 (ip : BitVec 128) : Option (BitVec 32) :=
  if ip.toNat / 2^32=0xffff then some (ip.setWidth 32) else none

def string4 (a : BitVec 32) : Str :=
  List.intercalate ['.'] ((digitsBE 256 4 a.toNat).map (Nat.toDigits 10))

def runLength : Option (ℕ × ℕ) → ℕ
  | none => 0
  | some (s,e) => e-s

/-- Keep the run of zeros that starts at i if it is longer than the best one so far. -/
def zeroStep (gs : List ℕ) (best : Option (ℕ × ℕ)) (i : ℕ) : Option (ℕ × ℕ) :=
  let l := ((gs.drop i).takeWhile (· = 0)).length
  if 2≤l ∧ runLength best<l then some (i,i+l) else best

def longestZeros (gs : List ℕ) : Option (ℕ × ℕ) := (List.range 8).foldl (zeroStep gs) none

def joinGroups (gs : List ℕ) : Str := List.intercalate [':'] (gs.map (Nat.toDigits 16))

def stringGroups (gs : List ℕ) : Str :=
  match longestZeros gs with
  | none => joinGroups gs
  | some (s,e) => joinGroups (gs.take s) ++ ':' :: ':'::joinGroups (gs.drop e)

def string6 (a : BitVec 128) : Str := stringGroups (digitsBE 65536 8 a.toNat)

def ipString (ip : BitVec 128) : Str :=
  match to4 ip with
  | some a => string4 a
  | none => string6 ip

example : parseAddr "127.0.0.1" = some (.v4 0x7f000001) := by decide
example : parseAddr "fe80::1%eth0" = some (.v6 0xfe800000000000000000000000000001 "eth0") := by decide
example : parseAddr "::ffff:1.2.3.4" = some (.v6 0xffff01020304 "") := by decide
example : parseAddr "01.2.3.4" = none := by decide
example : parsePrefix "100.64.0.0/10" = some (.v4 0x64400000 10) := by decide
example : ipString 0x20010db8000000000001000000000001 = "2001:db8::1:0:0:1" := by decide

end TunnnejiTail.Netip
