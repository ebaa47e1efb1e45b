import TunnnejiTail.Go.Loops

/-! Loops over what is still to be visited. -/
namespace TunnnejiTail.Go

section
variable {κ σ ε : Type} (visit : σ → κ → Except (Option ε) (σ × List κ))

def visitAll (toScan : List κ) (s : σ) : Except (Option ε) (σ × List κ) :=
  toScan.foldlM (fun r h => (visit r.1 h).map fun r' => (r'.1,r.2++r'.2)) (s,[])

/-- Round after round, until nothing is added. The number is that of rounds left; a loop that would go on
after them has no result. -/
def scanAll : ℕ → List κ → σ → Except (Option ε) σ
  | _,[],s => .ok s
  | 0,_::_,_ => .error none
  | n+1,h::toScan,s => do
    let r ← visitAll visit (h::toScan) s
    scanAll n r.2 r.1

end

section
variable {κ σ ε : Type} {visit : σ → κ → Except (Option ε) (σ × List κ)} {motive : List κ → σ → Prop}
  (hvisit : ∀ {h pending s s' added}, motive (h::pending) s → visit s h=.ok (s',added) → motive (pending++added) s')
include hvisit

variable {toScan : List κ}

lemma visitAll_invariant {s : σ} {r : σ × List κ} (hs : motive toScan s)
    (h : visitAll visit toScan s=.ok r) : motive r.2 r.1 := by
  have hloop (toScan added : List κ) (s : σ) (hs : motive (toScan++added) s)
      (h : toScan.foldlM (fun r h => (visit r.1 h).map fun r' => (r'.1,r.2++r'.2)) (s,added)=.ok r) :
      motive r.2 r.1 := by
    induction toScan generalizing added s with
    | nil =>
      cases h
      exact hs
    | cons k toScan ih =>
      obtain ⟨t,ht,h⟩ := foldlM_cons_ok.mp h
      obtain ⟨⟨s',new⟩,hv,rfl⟩ := map_eq_ok.mp ht
      refine ih (added++new) s' ?_ h
      rw [← List.append_assoc]
      exact hvisit hs hv
  exact hloop toScan [] s (by rwa [List.append_nil]) h

lemma scanAll_invariant {n : ℕ} {s s' : σ} (hs : motive toScan s)
    (h : scanAll visit n toScan s=.ok s') : motive [] s' := by
  induction n generalizing toScan s with
  | zero =>
    cases toScan with
    | nil =>
      cases h
      exact hs
    | cons k toScan => cases h
  | succ n ih =>
    cases toScan with
    | nil =>
      cases h
      exact hs
    | cons k toScan =>
      obtain ⟨r,hr,h⟩ := bind_eq_ok.mp h
      exact ih (visitAll_invariant hvisit hs hr) h

end

end TunnnejiTail.Go
