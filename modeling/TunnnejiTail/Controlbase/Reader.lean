import TunnnejiTail.Controlbase.Conn

/-! What Read does to its half of the connection. It never panics, and as long as it has its
cipher, what it returned and still holds is what the peer sealed under the nonces before its
own. -/
namespace TunnnejiTail.Controlbase
open Go Crypto List Option Nonce

variable {A : Cipher} {logs : Logs} {rx : RxState}

def nonceAt (i : ℕ) : Nonce := ⟨0,UInt64.ofNat i⟩

lemma nonceAt_inj {i j : ℕ} (hi : i<2^64) (hj : j<2^64) (h : nonceAt i=nonceAt j) : i=j := by
  have hc : UInt64.ofNat i=UInt64.ofNat j := congrArg counter h
  have hn := congrArg UInt64.toNat hc
  rwa [UInt64.toNat_ofNat',UInt64.toNat_ofNat',Nat.mod_eq_of_lt hi,Nat.mod_eq_of_lt hj] at hn

variable {n : Nonce}

lemma Nonce.eq_nonceAt (h : n.hi=0) : n=nonceAt n.counter.toNat := by
  rw [nonceAt,UInt64.ofNat_toNat,← h]

lemma Nonce.increment_eq (h : n.valid) :
    n.increment=.ok ⟨n.hi,1+n.counter⟩ := if_pos h

lemma Nonce.toNat_succ (h : n.valid) :
    (1+n.counter).toNat=n.counter.toNat+1 ∧ n.counter.toNat+1<2^64 := by
  have hne : n.counter≠invalidNonce := of_decide_eq_true (Bool.and_eq_true_iff.mp h).2
  have hlt := n.counter.toNat_lt
  have hmax : n.counter.toNat≠2^64-1 := by
    intro heq
    refine hne (UInt64.toNat.inj ?_)
    rw [heq,invalidNonce]
    rfl
  have hsucc : n.counter.toNat+1<2^64 := by omega
  refine ⟨?_,hsucc⟩
  rw [UInt64.toNat_add,Nat.add_comm]
  exact Nat.mod_eq_of_lt hsucc

namespace RxState

structure Fits (rx : RxState) : Prop where
  next_le : rx.next ≤ rx.n
  n_le : rx.n ≤ maxMessageSize
  held : rx.buf=none → rx.n=0

lemma Fits.keep {rx rx' : RxState} (h : rx.Fits) (hnext : rx'.next=rx.next) (hn : rx'.n=rx.n)
    (hbuf : rx'.buf=rx.buf) : rx'.Fits := by
  refine ⟨?_,hn ▸ h.n_le,?_⟩
  · rw [hnext,hn]
    exact h.next_le
  · rw [hbuf,hn]
    exact h.held

structure Same (rx rx' : RxState) : Prop where
  cipher : rx'.cipher=rx.cipher
  nonce : rx'.nonce=rx.nonce
  plaintext : rx'.plaintext=rx.plaintext

lemma Same.trans {rx rx' rx'' : RxState} (h : rx.Same rx') (h' : rx'.Same rx'') : rx.Same rx'' :=
  ⟨h'.cipher.trans h.cipher,h'.nonce.trans h.nonce,h'.plaintext.trans h.plaintext⟩

/-- What decryptLocked leaves and returns. -/
inductive Decrypted (A : Cipher) (logs : Logs) (rx : RxState) : RxState × Option ConnError → Prop
  | refused (err : ConnError) (h : err≠.openFailed) : Decrypted A logs rx (rx,some err)
  | opened (key : Key) (c p : Bytes) (hkey : rx.cipher=some key) (hvalid : rx.nonce.valid)
    (h : A.opens (logs key) rx.nonce c=some p) :
    Decrypted A logs rx ({ rx with plaintext := p,nonce := ⟨rx.nonce.hi,1+rx.nonce.counter⟩ },none)
  | failed (nonce : Nonce) : Decrypted A logs rx
      ({ rx with plaintext := [],nonce := nonce,cipher := none },some .openFailed)

lemma slice_returns (h : rx.Fits) {lo hi : ℕ} (hlo : lo≤hi) (hpos : 0<hi) (hhi : hi ≤ rx.n) :
    Returns (rx.slice lo hi) fun bs => bs.length=hi-lo := by
  cases hbuf : rx.buf with
  | none =>
    have hn := h.held hbuf
    omega
  | some b =>
    have hb : hi≤b.bytes.length := by
      rw [b.size]
      exact Nat.le_trans hhi h.n_le
    rw [slice,hbuf]
    refine ⟨_,slice_of_le hlo hb,?_⟩
    dsimp only
    rw [length_drop,length_take,Nat.min_eq_left hb]

lemma decryptLocked_returns (hc : rx.cipher.isSome) {msg : Bytes} (hmsg : headerLen ≤ msg.length) :
    Returns (rx.decryptLocked A logs msg) (Decrypted A logs rx) := by
  have hlen : 0 < msg.length := Nat.lt_of_lt_of_le (by decide) hmsg
  refine Returns.bind (.of_eq (index_of_lt hlen)) ?_
  rintro _ rfl
  refine Returns.ite (fun _ => .ok (.refused _ nofun)) fun _ => ?_
  refine Returns.bind (.of_eq (sliceFrom_of_le hmsg)) ?_
  rintro _ rfl
  refine Returns.ite (fun _ => .ok (.refused _ nofun)) fun hvalid => ?_
  have hvalid : rx.nonce.valid := by simpa using hvalid
  obtain ⟨key,hkey⟩ := isSome_iff_exists.mp hc
  rw [hkey]
  refine Returns.bind (.of_eq (increment_eq hvalid)) ?_
  rintro _ rfl
  cases hopen : A.opens (logs key) rx.nonce (msg.drop headerLen) with
  | none => exact .ok (.failed _)
  | some p => exact .ok (hkey ▸ .opened key _ p hkey hvalid hopen)

variable (h : rx.Fits)
include h

lemma wholeMessageLocked_returns :
    Returns rx.wholeMessageLocked fun x => x.1.Fits ∧ rx.Same x.1 ∧ ∀ bs, x.2=some bs → headerLen≤bs.length := by
  have h3 : headerLen=3 := rfl
  refine Returns.ite (fun _ => .ok ⟨h,⟨rfl,rfl,rfl⟩,nofun⟩) fun havail => ?_
  have hle := h.next_le
  refine Returns.bind (slice_returns h hle (by omega) (Nat.le_refl _)) ?_
  intro bs hbs
  refine Returns.bind (.of_eq (uint16At_of_lt (by omega))) ?_
  rintro size rfl
  refine Returns.ite (fun _ => .ok ⟨h,⟨rfl,rfl,rfl⟩,nofun⟩) fun hsize => ?_
  refine Returns.bind (.of_eq (slice_of_le (Nat.zero_le _) (Nat.le_of_not_lt hsize))) ?_
  rintro _ rfl
  refine .ok ⟨⟨?_,h.n_le,h.held⟩,⟨rfl,rfl,rfl⟩,?_⟩
  · dsimp only
    omega
  · rintro _ ⟨⟩
    rw [drop_zero,length_take]
    omega

lemma moveToHead_returns : Returns rx.moveToHead fun rx' => rx'.Fits ∧ rx.Same rx' := by
  refine Returns.ite (fun _ => .ok ⟨h,⟨rfl,rfl,rfl⟩⟩) fun hnext => ?_
  have hle := h.next_le
  have hmax := h.n_le
  refine Returns.bind (slice_returns h hle (by omega) (Nat.le_refl _)) ?_
  intro rest hrest
  refine .ok ⟨⟨Nat.zero_le _,?_,?_⟩,⟨rfl,rfl,rfl⟩⟩
  · dsimp only
    omega
  · intro hnone
    have hbuf := h.held (map_eq_none_iff.mp hnone)
    omega

lemma releaseBuf_fits : rx.releaseBuf.Fits ∧ rx.Same rx.releaseBuf := by
  unfold releaseBuf
  split_ifs with h0
  · exact ⟨⟨h.next_le,h.n_le,fun _ => h0.1⟩,⟨rfl,rfl,rfl⟩⟩
  · exact ⟨h,⟨rfl,rfl,rfl⟩⟩

lemma readNLocked_returns {total : ℕ} (hpos : 0<total)
    (hbuf : total=headerLen ∨ rx.buf.isSome) : Returns (rx.readNLocked total) fun x =>
      (∀ bs, x=.done bs → bs.length=total ∧ total ≤ rx.n ∧ rx.buf.isSome) ∧ ∀ err, x=.failed err → err≠.openFailed := by
  refine Returns.ite (fun _ => .ok ⟨nofun,?_⟩) fun _ => Returns.ite (fun hle => ?_) fun _ => ?_
  · rintro _ ⟨⟩
    exact nofun
  · refine Returns.bind (slice_returns h (Nat.zero_le _) hpos hle) ?_
    intro bs hbs
    refine .ok ⟨?_,nofun⟩
    rintro _ ⟨⟩
    refine ⟨hbs,hle,isSome_iff_ne_none.mpr fun hnone => ?_⟩
    have h0 := h.held hnone
    omega
  · cases hb : rx.buf with
    | none =>
      have htotal : total=headerLen := hbuf.resolve_right (by simp [hb])
      refine Returns.ite (fun hbad => ?_) fun _ => .ok ⟨nofun,nofun⟩
      obtain hn | hn := hbad
      · exact absurd (h.held hb) hn
      · exact absurd htotal hn
    | some b => exact .ok ⟨nofun,nofun⟩

lemma Fits.received (pooled : MaxMsgBuffer) {data : Bytes}
    (hroom : data.length ≤ rx.room) : (rx.received pooled data).Fits := by
  have hle := h.next_le
  have hmax := h.n_le
  refine ⟨Nat.le_add_right_of_le hle,?_,?_⟩
  · change rx.n+data.length ≤ maxMessageSize
    cases hb : rx.buf with
    | none =>
      have h3 : headerLen ≤ maxMessageSize := by decide
      rw [room,hb] at hroom
      rw [h.held hb,Nat.zero_add]
      exact Nat.le_trans hroom h3
    | some b =>
      rw [room,hb] at hroom
      dsimp only at hroom
      omega
  · intro hnone
    rw [RxState.received] at hnone ⊢
    cases hb : rx.buf with
    | none =>
      rw [hb] at hnone
      have hdata : data=[] := by
        by_contra hne
        simp [hne] at hnone
      rw [hdata]
      exact h.held hb
    | some b =>
      rw [hb] at hnone
      cases hnone

end RxState

def Silent (events : List ReadEvent) : Prop :=
  ∀ before after, events=before++.failed .openFailed::after → ∀ e ∈ after, e.bytes=[]

lemma Silent.snoc {events : List ReadEvent} (h : Silent events) {e : ReadEvent}
    (he : .failed .openFailed ∈ events → e.bytes=[]) : Silent (events++[e]) := by
  intro before after heq x hx
  obtain rfl | ⟨after',y,rfl⟩ := eq_nil_or_concat after
  · cases hx
  · rw [concat_eq_append,← cons_append,← append_assoc] at heq
    obtain ⟨hev,hxy⟩ := append_inj' heq rfl
    cases hxy
    rw [concat_eq_append,mem_append,mem_singleton] at hx
    obtain hx | rfl := hx
    · exact h before after' hev x hx
    · exact he (by rw [hev]; simp)

def ReadPC.Holds (rx : RxState) : ReadPC → Prop
  | idle => True
  | looping _ => rx.cipher.isSome
  | header _ => rx.cipher.isSome ∧ rx.plaintext=[]
  | message _ total => rx.cipher.isSome ∧ rx.plaintext=[] ∧ headerLen≤total ∧ rx.buf.isSome

lemma ReadPC.Holds.received {rx : RxState} {pc : ReadPC} (h : pc.Holds rx) (pooled : MaxMsgBuffer)
    (data : Bytes) : pc.Holds (rx.received pooled data) := by
  cases pc with
  | message len total =>
    refine ⟨h.1,h.2.1,h.2.2.1,?_⟩
    obtain ⟨b,hb⟩ := isSome_iff_exists.mp h.2.2.2
    rw [RxState.received,hb]
    rfl
  | _ => exact h

namespace Reader

/-- What was returned and the plaintext at hand are the plaintexts of the nonces that were
used. -/
structure InStep (log : Log Nonce) (rx : RxState) (returned : Bytes) : Prop where
  hi : rx.nonce.hi=0
  counter_le : rx.nonce.counter.toNat≤log.length
  bytes : returned++rx.plaintext=plaintexts (log.take rx.nonce.counter.toNat)

/-- The invariant of the half that Read uses, for the key and the log of its direction. -/
structure Sound (key : Key) (log : Log Nonce) (r : Reader) : Prop where
  fits : r.rx.Fits
  holds : r.pc.Holds r.rx
  keyed : ∀ k, r.rx.cipher=some k → k=key
  inStep : r.rx.cipher.isSome → InStep log r.rx r.returned
  sent : r.returned <+: plaintexts log
  failed : .failed .openFailed ∈ r.events → r.rx.cipher=none
  silent : Silent r.events

variable {key : Key} {log : Log Nonce} {r : Reader}

lemma returned_failed (events : List ReadEvent) (err : ConnError) :
    (events++[ReadEvent.failed err]).flatMap ReadEvent.bytes=events.flatMap ReadEvent.bytes := by
  simp [ReadEvent.bytes]

variable {bs : Bytes}

lemma InStep.snoc (h : InStep log rx bs) (e : Sealed Nonce) : InStep (log++[e]) rx bs := by
  have hle := h.counter_le
  refine ⟨h.hi,?_,?_⟩
  · rw [length_append]
    omega
  · rw [take_append_of_le_length hle]
    exact h.bytes

lemma Sound.snoc (h : r.Sound key log) (e : Sealed Nonce) : r.Sound key (log++[e]) where
  fits := h.fits
  holds := h.holds
  keyed := h.keyed
  inStep hc := (h.inStep hc).snoc e
  sent := h.sent.trans ⟨e.plaintext,(plaintexts_snoc log e).symm⟩
  failed := h.failed
  silent := h.silent

lemma InStep.same {rx' : RxState} (hs : rx.Same rx') (h : InStep log rx bs) : InStep log rx' bs := by
  refine ⟨hs.nonce ▸ h.hi,hs.nonce ▸ h.counter_le,?_⟩
  rw [hs.nonce,hs.plaintext]
  exact h.bytes

section
variable (h : r.Sound key log) {pc : ReadPC} (hfits : rx.Fits) (hs : r.rx.Same rx)
include h hfits hs

lemma Sound.goOn (hc : r.rx.cipher.isSome) (hpc : pc.Holds rx) :
    Sound key log { r with rx := rx,pc := pc } where
  fits := hfits
  holds := hpc
  keyed := hs.cipher ▸ h.keyed
  inStep _ := (h.inStep hc).same hs
  sent := h.sent
  failed hev := hs.cipher ▸ h.failed hev
  silent := h.silent

lemma Sound.refuse {err : ConnError} (herr : err≠.openFailed) :
    (r.after rx pc (some err)).Sound key log := by
  have hret : (r.after rx pc (some err)).returned=r.returned := returned_failed _ _
  refine ⟨hfits,trivial,?_,?_,?_,?_,h.silent.snoc fun _ => rfl⟩
  · exact fun k hk => h.keyed k (hs.cipher ▸ hk)
  · intro hc
    rw [hret]
    exact (h.inStep (hs.cipher ▸ hc)).same hs
  · rw [hret]
    exact h.sent
  · intro hev
    obtain hev | hev := mem_append.mp hev
    · exact hs.cipher.trans (h.failed hev)
    · cases mem_singleton.mp hev
      exact absurd rfl herr

end

lemma InStep.opened {c p : Bytes} (h : InStep log rx bs) (hnil : rx.plaintext=[])
    (hnum : Numbered nonceAt log) (hlog : log.length<2^64) (hvalid : rx.nonce.valid)
    (hopen : A.opens log rx.nonce c=some p) :
    InStep log { rx with plaintext := p,nonce := ⟨rx.nonce.hi,1+rx.nonce.counter⟩ } bs := by
  obtain ⟨hsucc,_⟩ := toNat_succ hvalid
  have hmem := A.authentic hopen
  rw [eq_nonceAt h.hi] at hmem
  have hget := hnum.getElem_of_mem
    (fun j hj => nonceAt_inj (Nat.lt_trans hj hlog) rx.nonce.counter.toNat_lt) hmem
  obtain ⟨hlt,_⟩ := List.getElem?_eq_some_iff.mp hget
  refine ⟨h.hi,?_,?_⟩
  · dsimp only
    omega
  · rw [hsucc,plaintexts_take_succ hget,← h.bytes,hnil,append_nil]

variable {len : ℕ}

lemma Sound.decrypted (h : r.Sound key (logs key))
    {x : RxState × Option ConnError} (hnum : Numbered nonceAt (logs key))
    (hlog : (logs key).length<2^64) (hnil : r.rx.plaintext=[]) (hc : r.rx.cipher.isSome)
    (hfits : rx.Fits) (hs : r.rx.Same rx) (hd : rx.Decrypted A logs x) :
    (r.after x.1 (.looping len) x.2).Sound key (logs key) := by
  have hin := (h.inStep hc).same hs
  cases hd with
  | refused err herr => exact h.refuse hfits hs herr
  | opened k c p hkey hvalid hopen =>
    obtain rfl := h.keyed k (hs.cipher ▸ hkey)
    have hc' : rx.cipher.isSome := hs.cipher ▸ hc
    refine ⟨hfits.keep rfl rfl rfl,hc',hs.cipher ▸ h.keyed,
      fun _ => hin.opened (hs.plaintext.trans hnil) hnum hlog hvalid hopen,h.sent,?_,h.silent⟩
    exact fun hev => hs.cipher.trans (h.failed hev)
  | failed nonce =>
    have hsent : (r.events++[ReadEvent.failed .openFailed]).flatMap ReadEvent.bytes <+:
        plaintexts (logs key) := by
      rw [returned_failed]
      exact h.sent
    exact ⟨hfits.keep rfl rfl rfl,trivial,nofun,nofun,hsent, fun _ => rfl,h.silent.snoc fun _ => rfl⟩

lemma Sound.call (h : r.Sound key log) (len : ℕ) : (r.call len).Sound key log := by
  rw [Reader.call]
  cases hc : r.rx.cipher with
  | none => exact h.refuse h.fits ⟨rfl,rfl,rfl⟩ nofun
  | some k =>
    have hsome : r.rx.cipher.isSome := by rw [hc]; rfl
    exact h.goOn h.fits ⟨rfl,rfl,rfl⟩ hsome hsome

lemma Sound.deliver (h : r.Sound key log) (hc : r.rx.cipher.isSome) (len : ℕ) :
    (r.deliver len).Sound key log := by
  have hin := h.inStep hc
  have hret : (r.deliver len).returned=r.returned++r.rx.plaintext.take len := by
    simp [returned,Reader.deliver,ReadEvent.bytes]
  have hbytes : (r.deliver len).returned++r.rx.plaintext.drop len = plaintexts (log.take r.rx.nonce.counter.toNat) := by
    rw [hret,append_assoc,take_append_drop,hin.bytes]
  have hnot : .failed .openFailed ∉ r.events := by
    intro hev
    rw [h.failed hev] at hc
    cases hc
  refine ⟨h.fits.keep rfl rfl rfl,trivial,h.keyed,
    fun _ => ⟨hin.hi,hin.counter_le,hbytes⟩,?_,?_,h.silent.snoc fun hev => absurd hev hnot⟩
  · exact List.IsPrefix.trans ⟨_,hbytes⟩ (plaintexts_take_isPrefix log _)
  · intro hev
    obtain hev | hev := mem_append.mp hev
    · exact absurd hev hnot
    · cases mem_singleton.mp hev

lemma Sound.close (h : r.Sound key log) (hidle : r.pc=.idle) :
    Sound key log { r with rx := { r.rx with cipher := none } } where
  fits := h.fits.keep rfl rfl rfl
  holds := by
    rw [hidle]
    trivial
  keyed := nofun
  inStep := nofun
  sent := h.sent
  failed _ := rfl
  silent := h.silent

variable (h : r.Sound key (logs key)) (hnum : Numbered nonceAt (logs key)) (hlog : (logs key).length<2^64)

section
include h hnum hlog

lemma Sound.decryptOneLocked_returns (hnil : r.rx.plaintext=[]) (hc : r.rx.cipher.isSome)
    (len : ℕ) : Returns (r.decryptOneLocked A logs len) fun r' => r'.Sound key (logs key) := by
  have heq : { r.rx with plaintext := [] } = r.rx := by rw [← hnil]
  rw [decryptOneLocked,heq]
  refine Returns.bind (RxState.wholeMessageLocked_returns h.fits) ?_
  rintro ⟨rx,whole⟩ ⟨hfits,hs,hwhole⟩
  cases whole with
  | some bs =>
    have hc' : rx.cipher.isSome := hs.cipher ▸ hc
    refine Returns.bind (RxState.decryptLocked_returns hc' (hwhole bs rfl)) ?_
    intro x hd
    exact .ok (h.decrypted hnum hlog hnil hc hfits hs hd)
  | none =>
    refine Returns.bind (RxState.moveToHead_returns hfits) ?_
    rintro rx' ⟨hfits',hs'⟩
    obtain ⟨hfits'',hs''⟩ := RxState.releaseBuf_fits hfits'
    have hall := (hs.trans hs').trans hs''
    exact .ok (h.goOn hfits'' hall hc ⟨hall.cipher ▸ hc,hall.plaintext.trans hnil⟩)

lemma Sound.messageRead_returns {bs : Bytes}
    (hholds : (ReadPC.message len bs.length).Holds r.rx) (hle : bs.length ≤ r.rx.n) :
    Returns (r.messageRead A logs len bs) fun r' => r'.Sound key (logs key) := by
  obtain ⟨hc,hnil,hlen,_⟩ := hholds
  have hfits : { r.rx with next := bs.length }.Fits := ⟨hle,h.fits.n_le,h.fits.held⟩
  have hc' : { r.rx with next := bs.length }.cipher.isSome := hc
  refine Returns.bind (RxState.decryptLocked_returns hc' hlen) ?_
  intro x hd
  exact .ok (h.decrypted hnum hlog hnil hc hfits ⟨rfl,rfl,rfl⟩ hd)

end

lemma Sound.headerRead_returns (h : r.Sound key log)
    (hholds : (ReadPC.header len).Holds r.rx) (hlen : bs.length=headerLen) (hbuf : r.rx.buf.isSome) :
    Returns (r.headerRead len bs) fun r' => r'.Sound key log := by
  refine Returns.bind (.of_eq (uint16At_of_lt (by rw [hlen]; decide))) ?_
  rintro size rfl
  exact .ok (h.goOn h.fits ⟨rfl,rfl,rfl⟩ hholds.1 ⟨hholds.1,hholds.2,Nat.le_add_right _ _,hbuf⟩)

lemma Sound.readN_returns (h : r.Sound key log) {total : ℕ} {next : Bytes → Except Fault Reader}
    (hpos : 0<total) (hbuf : total=headerLen ∨ r.rx.buf.isSome)
    (hnext : ∀ bs, bs.length=total → total ≤ r.rx.n → r.rx.buf.isSome → Returns (next bs) fun r' => r'.Sound key log) :
    Returns (r.readN total next) fun x => ∀ r', x=some r' → r'.Sound key log := by
  refine Returns.bind (RxState.readNLocked_returns h.fits hpos hbuf) ?_
  rintro x ⟨hdone,hfail⟩
  cases x with
  | wait => exact .ok nofun
  | failed err =>
    refine .ok ?_
    rintro _ ⟨⟩
    exact h.refuse h.fits ⟨rfl,rfl,rfl⟩ (hfail err rfl)
  | done bs =>
    obtain ⟨hlen,hle,hsome⟩ := hdone bs rfl
    exact Returns.map_some (hnext bs hlen hle hsome)

include h hnum hlog in
lemma Sound.run_returns : Returns (r.run A logs) fun x => ∀ r', x=some r' → r'.Sound key (logs key) := by
  have hholds := h.holds
  rw [run]
  cases hpc : r.pc with
  | idle => exact .ok nofun
  | looping len =>
    rw [hpc] at hholds
    refine Returns.ite (fun hlen => ?_) fun _ => .ok ?_
    · have hnil := eq_nil_of_length_eq_zero hlen
      exact Returns.map_some (h.decryptOneLocked_returns hnum hlog hnil hholds len)
    · rintro _ ⟨⟩
      exact h.deliver hholds len
  | header len =>
    rw [hpc] at hholds
    refine h.readN_returns (by decide) (.inl rfl) ?_
    intro bs hlen _ hbuf
    exact h.headerRead_returns hholds hlen hbuf
  | message len total =>
    rw [hpc] at hholds
    have hpos : 0<total := Nat.lt_of_lt_of_le (by decide) hholds.2.2.1
    refine h.readN_returns hpos (.inr hholds.2.2.2) ?_
    rintro bs rfl hle _
    exact h.messageRead_returns hnum hlog hholds hle

lemma wants_pos {total : ℕ} (h : r.pc.Holds r.rx) (hw : r.wants=some total) :
    r.rx.cipher.isSome ∧ 0<total ∧ (total=headerLen ∨ r.rx.buf.isSome) := by
  unfold wants at hw
  split at hw
  · next hpc =>
    cases hw
    rw [hpc] at h
    exact ⟨h.1,by decide,.inl rfl⟩
  · next hpc =>
    cases hw
    rw [hpc] at h
    exact ⟨h.1,Nat.lt_of_lt_of_le (by decide) h.2.2.1,.inr h.2.2.2⟩
  · cases hw

lemma Sound.receive_returns (h : r.Sound key log) (pooled : MaxMsgBuffer) (data : Bytes)
    (err : Option Str) : Returns (r.receive pooled data err) fun x => ∀ r', x=some r' → r'.Sound key log := by
  unfold receive
  cases hw : r.wants with
  | none => exact .ok nofun
  | some total =>
    obtain ⟨hc,hpos,hbuf⟩ := wants_pos h.holds hw
    refine Returns.bind (RxState.readNLocked_returns h.fits hpos hbuf) ?_
    rintro x -
    cases x with
    | done bs => exact .ok nofun
    | failed err => exact .ok nofun
    | wait =>
      refine Returns.ite (fun hroom => .ok ?_) fun _ => .ok nofun
      rintro _ ⟨⟩
      have hfits := h.fits.received pooled hroom
      cases err with
      | none => exact h.goOn hfits ⟨rfl,rfl,rfl⟩ hc (h.holds.received pooled data)
      | some text => exact h.refuse hfits ⟨rfl,rfl,rfl⟩ nofun

include h hnum hlog in
lemma Sound.step_returns (a : ReadAction) :
    Returns (r.step A logs a) fun x => ∀ r', x=some r' → r'.Sound key (logs key) := by
  cases a with
  | call len =>
    refine .ok ?_
    intro r' hr'
    split_ifs at hr'
    cases hr'
    exact h.call len
  | run => exact h.run_returns hnum hlog
  | receive pooled data err => exact h.receive_returns pooled data err
  | close =>
    refine .ok ?_
    intro r' hr'
    split_ifs at hr' with hidle
    cases hr'
    exact h.close hidle

end Reader

end TunnnejiTail.Controlbase
