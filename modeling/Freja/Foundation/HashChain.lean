import Mathlib.Data.List.Basic
import Mathlib.Data.List.Induction

namespace Freja

-- A record names itself by its hash and the record before it by that one's hash.
structure HashChain (ρ : Type u) (η : Type v) where
  hash : ρ → η
  previous : ρ → Option η

namespace HashChain

variable {ρ : Type u} {η : Type v} (chain : HashChain ρ η)

def Linked (start : Option η) : List ρ → Prop
  | [] => True
  | record :: rest => chain.previous record = start ∧ Linked (some (chain.hash record)) rest

def tip (start : Option η) : List ρ → Option η
  | [] => start
  | record :: rest => tip (some (chain.hash record)) rest

variable (start : Option η) (first second : List ρ)

@[simp] theorem tip_append :
    chain.tip start (first ++ second) = chain.tip (chain.tip start first) second := by
  induction first generalizing start with
  | nil => rfl
  | cons record rest ih => exact ih (some (chain.hash record))

theorem linked_append :
    chain.Linked start (first ++ second) ↔ chain.Linked start first ∧ chain.Linked (chain.tip start first) second := by
  induction first generalizing start with
  | nil => exact ⟨fun linked => ⟨trivial,linked⟩,fun linked => linked.2⟩
  | cons record rest ih =>
      simp only [List.cons_append,Linked,tip,ih]
      exact and_assoc.symm

theorem linked_last (rest : List ρ) (last : ρ) :
    chain.Linked start (rest ++ [last]) ↔ chain.Linked start rest ∧ chain.previous last = chain.tip start rest := by
  rw [linked_append]
  exact and_congr_right' ⟨fun linked => linked.1,fun same => ⟨same,trivial⟩⟩

-- From the end backwards: equal tips give last records that look the same, whose links
-- are the tips of what precedes them. The lengths need not be known to agree.
theorem linked_unique {σ : Type w} (view : ρ → σ)
    (links : ∀ a b, view a = view b → chain.previous a = chain.previous b)
    (linkedFirst : chain.Linked none first) (linkedSecond : chain.Linked none second)
    (tips : chain.tip none first = chain.tip none second)
    (injective : ∀ a ∈ first, ∀ b ∈ second, chain.hash a = chain.hash b → view a = view b) :
    first.map view = second.map view := by
  induction first using List.reverseRecOn generalizing second with
  | nil =>
      rcases List.eq_nil_or_concat' second with rfl | ⟨rest,last,rfl⟩
      · rfl
      · rw [tip_append] at tips
        cases tips
  | append_singleton start final ih =>
      rcases List.eq_nil_or_concat' second with rfl | ⟨rest,last,rfl⟩
      · rw [tip_append] at tips
        cases tips
      · rw [tip_append,tip_append] at tips
        obtain ⟨earlier,link⟩ := (chain.linked_last none start final).mp linkedFirst
        obtain ⟨before,other⟩ := (chain.linked_last none rest last).mp linkedSecond
        have same : view final = view last := injective final (by simp) last (by simp) (Option.some.inj tips)
        have starts : start.map view = rest.map view :=
          ih rest earlier before (link.symm.trans ((links _ _ same).trans other)) (fun a inFirst b inSecond =>
            injective a (List.mem_append_left _ inFirst) b (List.mem_append_left _ inSecond))
        simp [starts,same]

end HashChain

end Freja
