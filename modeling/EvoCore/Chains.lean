import Mathlib

namespace EvoCore.Chains
open Relation

-- Cycles and chains of a relation. Nothing below knows what the nodes are.
variable {α : Type} {r : α → α → Prop} {done : α → Prop}

def NoCycle (r : α → α → Prop) : Prop := ∀ a,¬ TransGen r a a

-- A part of the nodes that no edge leaves and in which no cycle runs.
structure Settled (r : α → α → Prop) (done : α → Prop) : Prop where
  closed : ∀ a b,done a → r a b → done b
  loopless : ∀ a,done a → ¬ TransGen r a a

theorem Settled.reaches (settled : Settled r done) (start : done a) (path : ReflTransGen r a b) : done b := by
  induction path with
  | refl => exact start
  | tail _ edge ih => exact settled.closed _ _ ih edge

theorem Settled.grow (settled : Settled r done) (new : ¬ done x) (next : ∀ b,r x b → done b) :
    Settled r fun a => a = x ∨ done a := by
  constructor
  · rintro a b (rfl | old) edge
    · exact .inr (next b edge)
    · exact .inr (settled.closed a b old edge)
  · rintro a (rfl | old) cycle
    · obtain ⟨b,edge,back⟩ := TransGen.head'_iff.mp cycle
      exact new (settled.reaches (next b edge) back)
    · exact settled.loopless a old cycle

theorem Settled.noCycle (settled : Settled r done) (all : ∀ a b,r a b → done a) : NoCycle r := by
  intro a cycle
  obtain ⟨b,edge,_⟩ := TransGen.head'_iff.mp cycle
  exact settled.loopless a (all a b edge) cycle

theorem NoCycle.of_le {q : α → α → Prop} (free : NoCycle r) (fewer : ∀ a b,q a b → r a b) : NoCycle q :=
  fun a cycle => free a (TransGen.mono fewer _ _ cycle)

theorem NoCycle.chain_bounded {path nodes : List α} (free : NoCycle r) (chain : path.IsChain r) (inside : ∀ a ∈ path,a ∈ nodes) :
    path.length ≤ nodes.length := by
  have ordered : path.Pairwise (TransGen r) :=
    List.isChain_iff_pairwise.mp (chain.imp fun _ _ edge => TransGen.single edge)
  have apart : path.Nodup := by
    refine ordered.imp fun {a b} later => ?_
    rintro rfl
    exact free a later
  exact (apart.subperm inside).length_le

-- A chain that comes back to where it starts.
structure Circuit (r : α → α → Prop) (path : List α) : Prop where
  links : path.IsChain r
  long : 2 ≤ path.length
  closes : path.getLast? = path.head?

theorem Circuit.cyclic {path : List α} (circuit : Circuit r path) : ¬ NoCycle r := by
  obtain ⟨links,long,closes⟩ := circuit
  cases path with
  | nil => simp at long
  | cons a rest =>
    have ordered : (a::rest).Pairwise (TransGen r) :=
      List.isChain_iff_pairwise.mp (links.imp fun _ _ edge => TransGen.single edge)
    have rest_ : rest ≠ [] := by
      rintro rfl
      simp at long
    rw [List.getLast?_cons,List.getLast?_eq_getLast_of_ne_nil rest_] at closes
    have same : rest.getLast rest_ = a := Option.some.inj closes
    have member : a ∈ rest := same ▸ List.getLast_mem rest_
    exact fun free => free a (List.rel_of_pairwise_cons ordered member)

end EvoCore.Chains
