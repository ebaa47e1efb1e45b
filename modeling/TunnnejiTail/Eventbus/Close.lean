import TunnnejiTail.Go.Maps

/-! Closing a subscription of an event bus client while the client's pump delivers. Close sets a
flag that no dispatch loop reads and then takes the subscriber out of the table. -/
namespace TunnnejiTail.Eventbus
open Go List

variable {τ ν : Type} [DecidableEq τ]

/-- A Subscriber, or a SubscriberFunc if isFunc. -/
structure Sub (τ : Type) where
  id : ℕ
  typ : τ
  isFunc : Bool
  deriving DecidableEq

inductive Event (τ ν : Type)
  | accept (v : τ × ν)
  | lookup
  | dispatch
  | begin
  | callbackReturns
  | callDone
  | receive
  | cancel
  | subscribe (s : Sub τ)
  | close (s : Sub τ)

/-- The subscribers by type, those there ever were and those whose Close has returned. -/
structure Table (τ : Type) where
  outputs : GoMap τ (Sub τ)
  made : List (Sub τ)
  closed : List (Sub τ)

def Table.step (t : Table τ) : Event τ ν → Table τ
  | .subscribe s =>
    if s ∉ t.made ∧ (t.outputs.lookup s.typ).isNone then
      { t with outputs := t.outputs.insert s.typ s, made := s::t.made }
    else t
  | .close s =>
    if s ∈ t.made then { t with outputs := t.outputs.erase s.typ, closed := s::t.closed } else t
  | _ => t

/-- Where the pump is: found holds between subscriberFor and the dispatch loop. -/
inductive Place (τ : Type)
  | idle
  | found (s : Sub τ)
  | sending (s : Sub τ)
  | waiting (s : Sub τ)
  | exited
  deriving DecidableEq

/-- The pump with its queue. A callback is pending from its go statement on, and then running. -/
structure Pump (τ ν : Type) where
  vals : List (τ × ν)
  place : Place τ
  callback : Option (Sub τ × Bool)

def Pump.step (outputs : GoMap τ (Sub τ)) (p : Pump τ ν) (ev : Event τ ν) : Pump τ ν :=
  match ev,p.place with
  | .accept v,.idle => if p.vals=[] then { p with vals := [v] } else p
  | .accept v,.sending _ | .accept v,.waiting _ => { p with vals := p.vals++[v] }
  | .lookup,.idle =>
    match p.vals with
    | [] => p
    | v::rest => (outputs.lookup v.1).elim { p with vals := rest } fun s => { p with place := .found s }
  | .dispatch,.found s =>
    if s.isFunc then { p with place := .waiting s, callback := some (s,false) }
    else { p with place := .sending s }
  | .begin,_ => { p with callback := p.callback.map fun b => (b.1,true) }
  | .callbackReturns,_ => { p with callback := p.callback.filter fun b => !b.2 }
  | .callDone,.waiting _ => if p.callback.isNone then { p with place := .idle, vals := p.vals.tail } else p
  | .receive,.sending _ => { p with place := .idle, vals := p.vals.tail }
  | .cancel,.idle | .cancel,.sending _ | .cancel,.waiting _ => { p with place := .exited }
  | _,_ => p

/-- The pump has looked the subscriber up and has not delivered yet. -/
def Pump.inHand (p : Pump τ ν) (s : Sub τ) : Bool :=
  p.place=.found s ∨ p.place=.sending s ∨ p.callback=some (s,false)

structure Client (τ ν : Type) where
  table : Table τ
  pump : Pump τ ν

lemma Pump.inHand_iff {p : Pump τ ν} {s : Sub τ} :
    p.inHand s ↔ p.place=.found s ∨ p.place=.sending s ∨ p.callback=some (s,false) := decide_eq_true_iff

/-- A step takes in hand only what is registered. -/
lemma Pump.inHand_step (m : GoMap τ (Sub τ)) (p : Pump τ ν) (ev : Event τ ν) (s : Sub τ)
    (h : (p.step m ev).inHand s) : p.inHand s ∨ ∃ t, m.lookup t=some s := by
  unfold Pump.step at h
  split at h
  case h_4 =>
    split at h
    · exact .inl h
    · next v rest hv =>
      cases hl : m.lookup v.1 with
      | none => exact .inl (by rwa [hl] at h)
      | some s' =>
        rw [hl,Option.elim_some,inHand_iff] at h
        rcases h with h | h | h
        · exact .inr ⟨v.1,Place.found.inj h ▸ hl⟩
        · cases h
        · exact .inl (inHand_iff.mpr (.inr (.inr h)))
  case h_6 =>
    simp only [inHand_iff,Option.map_eq_some_iff,Prod.mk.injEq,Bool.true_eq_false,and_false,exists_false,
      or_false] at h ⊢
    exact .inl (h.imp_right .inl)
  all_goals try split_ifs at h
  all_goals simp_all [inHand_iff]

namespace Client

def new : Client τ ν := ⟨⟨∅,[],[]⟩,⟨[],.idle,none⟩⟩

def step (c : Client τ ν) (ev : Event τ ν) : Client τ ν :=
  ⟨c.table.step ev,c.pump.step c.table.outputs ev⟩

def stuck (c : Client τ ν) : Bool :=
  match c.pump.place with
  | .sending s => s ∈ c.table.closed
  | _ => false

/-- The step starts a callback whose Close has returned, or leaves the pump stuck on one. -/
def offends (c : Client τ ν) (ev : Event τ ν) : Bool :=
  (match ev,c.pump.callback with
    | .begin,some (s,false) => decide (s ∈ c.table.closed)
    | _,_ => false) || (c.step ev).stuck

def final : Client τ ν → List (Event τ ν) → Bool
  | _,[] => true
  | c,ev::evs => !c.offends ev && final (c.step ev) evs

/-- No subscriber is closed while the pump has it in hand. -/
def apart : Client τ ν → List (Event τ ν) → Bool
  | _,[] => true
  | c,ev::evs => (match ev with
    | .close s => !c.pump.inHand s
    | _ => true) && apart (c.step ev) evs

structure Inv (c : Client τ ν) : Prop where
  registered : ∀ t s, c.table.outputs.lookup t=some s → s.typ=t ∧ s ∉ c.table.closed
  closed : ∀ s ∈ c.table.closed, s ∈ c.table.made
  hand : ∀ s, c.pump.inHand s → s ∉ c.table.closed

section
variable {c : Client τ ν} (h : Inv c)
include h

lemma Inv.step (ev : Event τ ν) (hap : c.apart [ev]) : Inv (c.step ev) := by
  have hhand (s : Sub τ) (hs : (c.step ev).pump.inHand s) : s ∉ c.table.closed :=
    (Pump.inHand_step _ _ ev s hs).elim (h.hand s) fun ⟨t,ht⟩ => (h.registered t s ht).2
  cases ev with
  | subscribe s =>
    unfold Client.step Table.step
    dsimp only
    split_ifs with hs
    · refine ⟨fun t s' hl => ?_,fun s' hs' => mem_cons_of_mem s (h.closed s' hs'),hhand⟩
      rcases of_lookup_insert hl with ⟨rfl,rfl⟩ | ⟨-,hl⟩
      · exact ⟨rfl,fun hc => hs.1 (h.closed _ hc)⟩
      · exact h.registered t s' hl
    · exact ⟨h.registered,h.closed,hhand⟩
  | close s =>
    have hout : ¬c.pump.inHand s := by simpa [apart] using hap
    unfold Client.step Table.step
    dsimp only
    split_ifs with hs
    · refine ⟨fun t s' hl => ?_,forall_mem_cons.mpr ⟨hs,h.closed⟩,fun s' hs' => ?_⟩
      · have ht : t≠s.typ := by
          rintro rfl
          cases (AList.lookup_erase s.typ c.table.outputs).symm.trans hl
        obtain ⟨rfl,hc⟩ := h.registered t s' ((AList.lookup_erase_ne ht).symm.trans hl)
        exact ⟨rfl,not_mem_cons_of_ne_of_not_mem (fun e => ht (congrArg Sub.typ e)) hc⟩
      · exact not_mem_cons_of_ne_of_not_mem (fun e => hout (e ▸ hs')) (hhand s' hs')
    · exact ⟨h.registered,h.closed,hhand⟩
  | _ => exact ⟨h.registered,h.closed,hhand⟩

lemma Inv.not_offends {ev : Event τ ν} (hn : Inv (c.step ev)) :
    c.offends ev=false := by
  unfold offends stuck
  rw [Bool.or_eq_false_iff]
  constructor
  · split
    · next s hs => exact decide_eq_false (h.hand s (Pump.inHand_iff.mpr (.inr (.inr hs))))
    · rfl
  · split
    · next s hs => exact decide_eq_false (hn.hand s (Pump.inHand_iff.mpr (.inr (.inl hs))))
    · rfl

lemma Inv.final (evs : List (Event τ ν)) (hap : c.apart evs) :
    c.final evs := by
  induction evs generalizing c with
  | nil => rfl
  | cons ev evs ih =>
    simp only [apart,Bool.and_eq_true] at hap
    have hn := h.step ev (by simpa [apart] using hap.1)
    rw [Client.final,h.not_offends hn]
    exact ih hn hap.2

end

/-- Closing is final in every run in which no subscriber is closed between lookup and delivery. -/
theorem close_final (evs : List (Event τ ν)) (hap : (new : Client τ ν).apart evs) :
    (new : Client τ ν).final evs :=
  Inv.final ⟨fun _ _ h => (by cases h),fun _ h => (by cases h),fun _ h => (by cases h)⟩ evs hap

def chan : Sub Bool := ⟨0,true,false⟩
def func : Sub Bool := ⟨1,true,true⟩

theorem close_final_chan :
    (new : Client Bool ℕ).final [.subscribe chan,.accept (true,0),.close chan,.lookup] :=
  close_final _ (by decide +kernel)

/-- Close falls between the lookup and the delivery: the callback starts afterwards, and the pump
waits for a reader that is gone. -/
theorem close_between :
    (new : Client Bool ℕ).final
      [.subscribe func,.accept (true,0),.lookup,.close func,.dispatch,.begin]=false ∧
    (new : Client Bool ℕ).final
      [.subscribe chan,.accept (true,0),.lookup,.close chan,.dispatch]=false := by
  decide +kernel

end Client
end TunnnejiTail.Eventbus
