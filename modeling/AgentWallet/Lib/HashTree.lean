import Mathlib
/-!
# Hash trees

Binary trees hashed from the leaves up, over any leaf hash and any node hash.
`leaf_of_root_eq`: a leaf of a tree, whose other leaves may be unknown, is a leaf of
every tree with the same root, when the hashes that occur in them tell leaves from
nodes, different leaves apart, and different unordered pairs apart. The node hash need
not respect the order of its two children.
-/

namespace AgentWallet.Lib

open List

inductive HashTree (α : Type) where
  | leaf (a : α)
  | node (l r : HashTree α)

namespace HashTree

variable {α β : Type}

def leaves : HashTree α → List α
  | leaf a => [a]
  | node l r => l.leaves ++ r.leaves

/-- The root of a tree for a leaf hash `f` and a node hash `g`. -/
def root (f : α → β) (g : β → β → β) : HashTree α → β
  | leaf a => f a
  | node l r => g (l.root f g) (r.root f g)

/-- The pairs of roots that the node hash is applied to. -/
def joins (f : α → β) (g : β → β → β) : HashTree α → List (β × β)
  | leaf _ => []
  | node l r => l.joins f g ++ r.joins f g ++ [(l.root f g, r.root f g)]

/-- Whatever holds of the leaf hashes and of the node hashes holds of the root. -/
lemma root_of_hashes {P : β → Prop} {f : α → β} {g : β → β → β} (t : HashTree α)
    (hf : ∀ a ∈ t.leaves, P (f a)) (hg : ∀ p ∈ t.joins f g, P (g p.1 p.2)) : P (t.root f g) := by
  cases t with
  | leaf a => exact hf a (by simp [leaves])
  | node l r => exact hg (l.root f g, r.root f g) (by simp [joins])

lemma joins_of_hashes {P : β → Prop} {f : α → β} {g : β → β → β} (t : HashTree α)
    (hf : ∀ a ∈ t.leaves, P (f a)) (hg : ∀ p ∈ t.joins f g, P (g p.1 p.2)) :
    ∀ p ∈ t.joins f g, P p.1 ∧ P p.2 := by
  induction t with
  | leaf a => simp [joins]
  | node l r ihl ihr =>
    simp only [leaves, joins, mem_append, mem_singleton] at hf hg ⊢
    have hfl := fun a ha => hf a (.inl ha)
    have hfr := fun a ha => hf a (.inr ha)
    have hgl := fun p hp => hg p (.inl (.inl hp))
    have hgr := fun p hp => hg p (.inl (.inr hp))
    rintro p ((hp | hp) | rfl)
    · exact ihl hfl hgl p hp
    · exact ihr hfr hgr p hp
    · exact ⟨root_of_hashes l hfl hgl, root_of_hashes r hfr hgr⟩

variable {f₁ : α → β} {g : β → β → β}

lemma leaves_left (l r : HashTree α) : l.leaves ⊆ (node l r).leaves := by simp [leaves]

lemma leaves_right (l r : HashTree α) : r.leaves ⊆ (node l r).leaves := by simp [leaves]

lemma joins_left (f : α → β) (l r : HashTree α) : l.joins f g ⊆ (node l r).joins f g := by
  intro p hp; simp [joins, hp]

lemma joins_right (f : α → β) (l r : HashTree α) : r.joins f g ⊆ (node l r).joins f g := by
  intro p hp; simp [joins, hp]

lemma join_mem (f : α → β) (l r : HashTree α) : (l.root f g, r.root f g) ∈ (node l r).joins f g := by simp [joins]

variable {γ : Type}

/-- A tree `t₁` in which the leaves with `R` are known, beside a tree `t₂`. The
known leaves and the nodes of `t₁` hash into `H`, and a node over a value in `H`
is told apart from the leaves and from the other nodes of `t₂`. -/
structure Opening (R : α → Prop) (H : β → Prop) (M : α → γ → Prop) (f₁ : α → β) (f₂ : γ → β) (g : β → β → β)
    (t₁ : HashTree α) (t₂ : HashTree γ) : Prop where
  known_leaf : ∀ a ∈ t₁.leaves, R a → H (f₁ a)
  known_node : ∀ p ∈ t₁.joins f₁ g, H (g p.1 p.2)
  leaf_leaf : ∀ a ∈ t₁.leaves, R a → ∀ b ∈ t₂.leaves, f₁ a = f₂ b → M a b
  leaf_node : ∀ a ∈ t₁.leaves, R a → ∀ p ∈ t₂.joins f₂ g, f₁ a ≠ g p.1 p.2
  node_leaf : ∀ p ∈ t₁.joins f₁ g, H p.1 ∨ H p.2 → ∀ b ∈ t₂.leaves, g p.1 p.2 ≠ f₂ b
  node_node : ∀ p ∈ t₁.joins f₁ g, H p.1 ∨ H p.2 → ∀ q ∈ t₂.joins f₂ g,
    g p.1 p.2 = g q.1 q.2 → p = q ∨ p = q.swap

variable {R : α → Prop} {H : β → Prop} {M : α → γ → Prop} {f₃ : γ → β}

lemma Opening.sub {t₁ u₁ : HashTree α} {t₂ u₂ : HashTree γ} (h : Opening R H M f₁ f₃ g t₁ t₂)
    (hl₁ : u₁.leaves ⊆ t₁.leaves) (hj₁ : u₁.joins f₁ g ⊆ t₁.joins f₁ g)
    (hl₂ : u₂.leaves ⊆ t₂.leaves) (hj₂ : u₂.joins f₃ g ⊆ t₂.joins f₃ g) : Opening R H M f₁ f₃ g u₁ u₂ where
  known_leaf a ha := h.known_leaf a (hl₁ ha)
  known_node p hp := h.known_node p (hj₁ hp)
  leaf_leaf a ha hR b hb := h.leaf_leaf a (hl₁ ha) hR b (hl₂ hb)
  leaf_node a ha hR p hp := h.leaf_node a (hl₁ ha) hR p (hj₂ hp)
  node_leaf p hp hH b hb := h.node_leaf p (hj₁ hp) hH b (hl₂ hb)
  node_node p hp hH q hq := h.node_node p (hj₁ hp) hH q (hj₂ hq)

lemma Opening.root_known {t₁ : HashTree α} {t₂ : HashTree γ} (h : Opening R H M f₁ f₃ g t₁ t₂) {a : α}
    (ha : a ∈ t₁.leaves) (hR : R a) : H (t₁.root f₁ g) := by
  cases t₁ with
  | leaf b =>
    obtain rfl : a = b := by simpa [leaves] using ha
    exact h.known_leaf a ha hR
  | node l r => exact h.known_node _ (join_mem f₁ l r)

/-- A known leaf of a tree with the root of `t₂` is matched by a leaf of `t₂`. -/
lemma leaf_of_root_eq (t₁ : HashTree α) (t₂ : HashTree γ) (hop : Opening R H M f₁ f₃ g t₁ t₂)
    (h : t₁.root f₁ g = t₂.root f₃ g) {a : α} (ha : a ∈ t₁.leaves) (hR : R a) : ∃ b ∈ t₂.leaves, M a b := by
  induction t₁ generalizing t₂ with
  | leaf c =>
    obtain rfl : a = c := by simpa [leaves] using ha
    cases t₂ with
    | leaf b => exact ⟨b, by simp [leaves], hop.leaf_leaf a ha hR b (by simp [leaves]) h⟩
    | node l r => exact absurd h (hop.leaf_node a ha hR _ (join_mem f₃ l r))
  | node l r ihl ihr =>
    -- The child with the known leaf has its root in `H`, so the node is told apart.
    have hs : H (l.root f₁ g) ∨ H (r.root f₁ g) := by
      rcases mem_append.1 ha with ha | ha
      · refine .inl ((hop.sub ?_ ?_ (List.Subset.refl _) (List.Subset.refl _)).root_known ha hR)
        · exact leaves_left l r
        · exact joins_left f₁ l r
      · refine .inr ((hop.sub ?_ ?_ (List.Subset.refl _) (List.Subset.refl _)).root_known ha hR)
        · exact leaves_right l r
        · exact joins_right f₁ l r
    cases t₂ with
    | leaf b => exact absurd h (hop.node_leaf _ (join_mem f₁ l r) hs b (by simp [leaves]))
    | node l' r' =>
      have left : ∀ b ∈ l'.leaves, b ∈ (node l' r').leaves := leaves_left l' r'
      have right : ∀ b ∈ r'.leaves, b ∈ (node l' r').leaves := leaves_right l' r'
      rcases hop.node_node _ (join_mem f₁ l r) hs _ (join_mem f₃ l' r') h with e | e <;>
        simp only [Prod.mk.injEq, Prod.swap_prod_mk] at e <;> obtain ⟨el, er⟩ := e <;>
        rcases mem_append.1 ha with ha | ha
      · obtain ⟨b, hb, hm⟩ := ihl l' (hop.sub (leaves_left l r) (joins_left f₁ l r) (leaves_left l' r')
          (joins_left f₃ l' r')) el ha
        exact ⟨b, left b hb, hm⟩
      · obtain ⟨b, hb, hm⟩ := ihr r' (hop.sub (leaves_right l r) (joins_right f₁ l r) (leaves_right l' r')
          (joins_right f₃ l' r')) er ha
        exact ⟨b, right b hb, hm⟩
      · obtain ⟨b, hb, hm⟩ := ihl r' (hop.sub (leaves_left l r) (joins_left f₁ l r) (leaves_right l' r')
          (joins_right f₃ l' r')) el ha
        exact ⟨b, right b hb, hm⟩
      · obtain ⟨b, hb, hm⟩ := ihr l' (hop.sub (leaves_right l r) (joins_right f₁ l r) (leaves_left l' r')
          (joins_left f₃ l' r')) er ha
        exact ⟨b, left b hb, hm⟩

end HashTree

end AgentWallet.Lib
