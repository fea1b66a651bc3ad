import Mathlib.Algebra.Order.BigOperators.Group.Multiset
import Mathlib.Data.Finset.Card
import Mathlib.Data.Multiset.Bind

/-!
# Linked nodes with reference counts

Immutable nodes that link to older nodes, each with a count of the references to it. A node is
freed when its last reference goes, and its own reference goes with it. Addresses are given once:
what is freed stays free.

## Main definitions

* `Heap α`, `Heap.alloc`, `Heap.retain`, `Heap.free`, `Heap.release`: the heap and its operations
* `Sound R h`: the counts are those of the references in `R` and in the links
* `Evolves h h'`: the nodes of `h'` are new or were in `h` alike
* `Update h rs h' rs'`: an owner of `rs` may go from `h` to `h'` and own `rs'` there
* `Chain h r ps`, `Heap.walk`: the nodes along the links from a reference

## Main results

* `Update.alloc`, `Update.retain`, `Update.free`, `Update.release`: the operations
* `Sound.chain_of_evolves`: what is still referenced reads as before
* `Sound.live_iff`, `Sound.length_live_le`: the live nodes are those along the links from the
  references
-/

namespace RefHeap

/-! ## Tables with free places -/

/-- What is at a place of a table, if the place is taken. -/
def entry {β : Type} (l : List (Option β)) (i : Nat) : Option β := (l[i]?).join

section entry

variable {β : Type} {l : List (Option β)} {i : Nat}

theorem lt_of_entry {b : β} (hb : entry l i = some b) : i < l.length := by
  by_contra hge
  rw [entry, List.getElem?_eq_none (Nat.not_lt.mp hge)] at hb
  cases hb

theorem entry_of_length_le (hi : l.length ≤ i) : entry l i = none := by
  rw [entry, List.getElem?_eq_none hi]
  rfl

theorem entry_set (hi : i < l.length) (c : Option β) (j : Nat) :
    entry (l.set i c) j = if i = j then c else entry l j := by
  rw [entry, List.getElem?_set]
  split_ifs
  · rfl
  · rfl

theorem entry_append (l : List (Option β)) (c : Option β) (j : Nat) :
    entry (l ++ [c]) j = if l.length = j then c else entry l j := by
  rw [entry, entry]
  rcases Nat.lt_trichotomy j l.length with hj | rfl | hj
  · rw [List.getElem?_append_left hj, if_neg (Nat.ne_of_gt hj)]
  · rw [List.getElem?_concat_length, if_pos rfl]
    rfl
  · have hlen : (l ++ [c]).length ≤ j := by rwa [List.length_append, List.length_singleton]
    rw [List.getElem?_eq_none hlen, if_neg (Nat.ne_of_lt hj), List.getElem?_eq_none hj.le]

end entry

/-! ## The heap -/

/-- An address. -/
abbrev Addr := Nat

/-- A node: its content, the node it links to, and the number of references to it. -/
structure Node (α : Type) where
  val : α
  parent : Option Addr
  count : Nat

/-- The nodes by address; a freed one is `none`. -/
abbrev Heap (α : Type) := List (Option (Node α))

variable {α : Type}

/-- The references that an optional link holds. -/
def refsOf (r : Option Addr) : Multiset Addr := r.elim 0 ({·})

@[simp] theorem refsOf_none : refsOf none = 0 := rfl

@[simp] theorem refsOf_some (a : Addr) : refsOf (some a) = {a} := rfl

theorem count_refsOf (r : Option Addr) (a : Addr) :
    (refsOf r).count a = if r = some a then 1 else 0 := by
  cases r with
  | none => rfl
  | some b => simp [Multiset.count_singleton, eq_comm]

/-- The link of a node, if it is live. -/
def linkOf (c : Option (Node α)) : Option Addr := c.bind Node.parent

/-- The count of a node, 0 when it is not live. -/
def countOf (c : Option (Node α)) : Nat := c.elim 0 Node.count

namespace Heap

/-- The live node at an address. -/
def node (h : Heap α) (a : Addr) : Option (Node α) := entry h a

/-- The number of links to an address. -/
def linksTo (h : Heap α) (a : Addr) : Nat := (h.map linkOf).count (some a)

/-- A new node, with one reference to it. -/
def alloc (h : Heap α) (val : α) (parent : Option Addr) : Heap α × Addr :=
  (h ++ [some ⟨val, parent, 1⟩], h.length)

/-- One more reference to a node. -/
def retain (h : Heap α) : Option Addr → Heap α
  | none => h
  | some a =>
    match h.node a with
    | none => h
    | some n => h.set a (some { n with count := n.count + 1 })

/-- The node is gone. -/
def free (h : Heap α) (a : Addr) : Heap α := h.set a none

/-- One reference less: the last one frees the node and gives up the reference of its link, and so
on along at most `fuel` nodes. -/
def releaseFrom : Nat → Heap α → Option Addr → Heap α
  | _, h, none => h
  | 0, h, some _ => h
  | fuel + 1, h, some a =>
    match h.node a with
    | none => h
    | some n =>
      if n.count ≤ 1 then releaseFrom fuel (h.free a) n.parent
      else h.set a (some { n with count := n.count - 1 })

/-- One reference less. No more nodes are freed than there are. -/
def release (h : Heap α) (r : Option Addr) : Heap α := releaseFrom h.length h r

/-- The nodes along the links from a reference, with their addresses, `fuel` of them at most. -/
def walkFrom (h : Heap α) : Nat → Option Addr → List (Addr × α)
  | _, none => []
  | 0, some _ => []
  | fuel + 1, some a =>
    match h.node a with
    | none => []
    | some n => (a, n.val) :: h.walkFrom fuel n.parent

/-- The nodes along the links from a reference. -/
def walk (h : Heap α) (r : Option Addr) : List (Addr × α) := h.walkFrom h.length r

/-- The addresses of the live nodes. -/
def live (h : Heap α) : List Addr := (List.range h.length).filter fun a => (h.node a).isSome

end Heap

theorem Heap.walk_none (h : Heap α) : h.walk none = [] := by
  rw [Heap.walk]
  cases h.length <;> rfl

/-- Where an optional link leads is where its reference leads. -/
theorem Heap.mem_walk_iff (h : Heap α) (r : Option Addr) (a : Addr) :
    a ∈ (h.walk r).map Prod.fst ↔ ∃ b ∈ refsOf r, a ∈ (h.walk (some b)).map Prod.fst := by
  cases r with
  | none => simp [h.walk_none]
  | some b => simp

theorem Heap.sum_walk_refsOf (h : Heap α) (r : Option Addr) :
    ((refsOf r).map fun a => (h.walk (some a)).length).sum = (h.walk r).length := by
  cases r with
  | none => rw [h.walk_none]; rfl
  | some a => simp

/-! ## Writing one node -/

section set

variable {h : Heap α} {a : Addr}

theorem lt_of_node {n : Node α} (hn : h.node a = some n) : a < h.length := lt_of_entry hn

theorem node_of_length_le (ha : h.length ≤ a) : h.node a = none := entry_of_length_le ha

theorem node_set (ha : a < h.length) (c : Option (Node α)) (b : Addr) :
    Heap.node (h.set a c) b = if a = b then c else h.node b := entry_set ha c b

theorem node_append (c : Option (Node α)) (b : Addr) :
    Heap.node (h ++ [c]) b = if h.length = b then c else h.node b := entry_append h c b

theorem node_alloc (h : Heap α) (val : α) (parent : Option Addr) :
    (h.alloc val parent).1.node (h.alloc val parent).2 = some ⟨val, parent, 1⟩ := by
  dsimp only [Heap.alloc]
  rw [node_append, if_pos rfl]

theorem linksTo_set (ha : a < h.length) (c : Option (Node α)) (b : Addr) :
    Heap.linksTo (h.set a c) b + (refsOf (linkOf (h.node a))).count b =
      h.linksTo b + (refsOf (linkOf c)).count b := by
  have hnode : h.node a = h[a] := by
    rw [Heap.node, entry, List.getElem?_eq_getElem ha]
    rfl
  have hlen : a < (h.map linkOf).length := by rwa [List.length_map]
  have hmem : linkOf h[a] = some b → 0 < (h.map linkOf).count (some b) := by
    intro hlink
    rw [List.count_pos_iff, ← hlink]
    exact List.mem_map_of_mem (List.getElem_mem ha)
  rw [Heap.linksTo, Heap.linksTo, List.map_set, List.count_set hlen, List.getElem_map, hnode,
    count_refsOf, count_refsOf]
  simp only [beq_iff_eq]
  split_ifs with hold hnew hnew
  all_goals first
    | have hpos := hmem hold
      omega
    | omega

theorem linksTo_append (c : Option (Node α)) (b : Addr) :
    Heap.linksTo (h ++ [c]) b = h.linksTo b + (refsOf (linkOf c)).count b := by
  rw [Heap.linksTo, Heap.linksTo, List.map_append, List.count_append, count_refsOf]
  simp [List.count_singleton, beq_iff_eq]

end set

/-! ## Soundness -/

/-- **The counts are exact**: each node is referenced as often as it says, by the roots and by the
links of live nodes, and a node that is not live by none. Links go to older nodes. -/
structure Sound (R : Multiset Addr) (h : Heap α) : Prop where
  exact : ∀ a, countOf (h.node a) = R.count a + h.linksTo a
  pos : ∀ a n, h.node a = some n → 0 < n.count
  older : ∀ a n p, h.node a = some n → n.parent = some p → p < a

/-- The nodes of `h'` are new, or were in `h` with the same content and link. -/
structure Evolves (h h' : Heap α) : Prop where
  length_le : h.length ≤ h'.length
  old : ∀ a n', a < h.length → h'.node a = some n' →
    ∃ n, h.node a = some n ∧ n.val = n'.val ∧ n.parent = n'.parent

/-- The nodes along the links from a reference, with their addresses. -/
inductive Chain (h : Heap α) : Option Addr → List (Addr × α) → Prop
  | nil : Chain h none []
  | cons {a : Addr} {n : Node α} {ps : List (Addr × α)} (hn : h.node a = some n)
      (hp : Chain h n.parent ps) : Chain h (some a) ((a, n.val) :: ps)

/-- An owner of the references `rs` may go from `h` to `h'` and own `rs'` there, whatever others
own. -/
structure Update (h : Heap α) (rs : Multiset Addr) (h' : Heap α) (rs' : Multiset Addr) : Prop where
  evolves : Evolves h h'
  sound : ∀ R, Sound (rs + R) h → Sound (rs' + R) h'

namespace Sound

variable {R : Multiset Addr} {h : Heap α}

theorem empty : Sound 0 ([] : Heap α) where
  exact _ := rfl
  pos _ _ hn := by cases hn
  older _ _ _ hn := by cases hn

/-- A reference is to a live node. -/
theorem node_of_root (hs : Sound R h) {a : Addr} (ha : a ∈ R) : ∃ n, h.node a = some n := by
  cases hn : h.node a with
  | some n => exact ⟨n, rfl⟩
  | none =>
    have hexact := hs.exact a
    have hpos := Multiset.count_pos.mpr ha
    rw [hn] at hexact
    have hzero : countOf (none : Option (Node α)) = 0 := rfl
    omega

theorem linksTo_pos {a b : Addr} {n : Node α} (hn : h.node b = some n) (hp : n.parent = some a) :
    0 < h.linksTo a := by
  have hb := lt_of_node hn
  rw [Heap.node, entry, List.getElem?_eq_getElem hb] at hn
  have hget : h[b] = some n := hn
  rw [Heap.linksTo, List.count_pos_iff]
  refine List.mem_map.mpr ⟨h[b], List.getElem_mem hb, ?_⟩
  rw [hget]
  exact hp

/-- A link is to a live node. -/
theorem node_of_link (hs : Sound R h) {a b : Addr} {n : Node α} (hn : h.node b = some n)
    (hp : n.parent = some a) : ∃ n', h.node a = some n' := by
  cases hn' : h.node a with
  | some n' => exact ⟨n', rfl⟩
  | none =>
    have hexact := hs.exact a
    have hpos := linksTo_pos hn hp
    rw [hn'] at hexact
    have hzero : countOf (none : Option (Node α)) = 0 := rfl
    omega

/-- From a live node the links lead to an end. The induction is on the address, which every link
lowers. -/
theorem exists_chain (hs : Sound R h) (a : Addr) :
    ∀ n, h.node a = some n → ∃ ps, Chain h (some a) ps := by
  induction a using Nat.strong_induction_on with
  | _ a ih =>
    intro n hn
    have hparent : ∃ ps, Chain h n.parent ps := by
      cases hp : n.parent with
      | none => exact ⟨[], .nil⟩
      | some p =>
        obtain ⟨n', hn'⟩ := hs.node_of_link hn hp
        exact ih p (hs.older a n p hn hp) n' hn'
    obtain ⟨ps, hps⟩ := hparent
    exact ⟨_, .cons hn hps⟩

/-- The links from a node lead to as many nodes as its address allows. -/
theorem length_le_of_chain (hs : Sound R h) {r : Option Addr} {ps : List (Addr × α)}
    (hc : Chain h r ps) : ∀ bound, (∀ a, r = some a → a < bound) → ps.length ≤ bound := by
  induction hc with
  | nil => exact fun bound _ => Nat.zero_le bound
  | @cons a n ps hn _ ih =>
    intro bound hbound
    have ha := hbound a rfl
    have hlen := ih a fun p hp => hs.older a n p hn hp
    exact Nat.succ_le_of_lt (Nat.lt_of_le_of_lt hlen ha)

end Sound

theorem Chain.walkFrom_eq {h : Heap α} {r : Option Addr} {ps : List (Addr × α)}
    (hc : Chain h r ps) : ∀ fuel, ps.length ≤ fuel → h.walkFrom fuel r = ps := by
  induction hc with
  | nil =>
    intro fuel _
    cases fuel <;> rfl
  | @cons a n ps hn _ ih =>
    intro fuel hfuel
    cases fuel with
    | zero => cases hfuel
    | succ fuel =>
      rw [Heap.walkFrom, hn]
      exact congrArg ((a, n.val) :: ·) (ih fuel (Nat.le_of_succ_le_succ hfuel))

/-- A walk follows the links to their end. -/
theorem Sound.walk_eq {R : Multiset Addr} {h : Heap α} (hs : Sound R h) {r : Option Addr}
    {ps : List (Addr × α)} (hc : Chain h r ps) : h.walk r = ps := by
  refine hc.walkFrom_eq _ (hs.length_le_of_chain hc _ ?_)
  rintro a rfl
  cases hc with
  | cons hn _ => exact lt_of_node hn

/-- **What is still referenced reads as before.** -/
theorem Sound.chain_of_evolves {R : Multiset Addr} {h h' : Heap α} (hs : Sound R h')
    (he : Evolves h h') {r : Option Addr} {ps : List (Addr × α)} (hc : Chain h r ps) :
    (∀ a, r = some a → ∃ n', h'.node a = some n') → Chain h' r ps := by
  induction hc with
  | nil => exact fun _ => .nil
  | @cons a n ps hn _ ih =>
    intro hlive
    obtain ⟨n', hn'⟩ := hlive a rfl
    obtain ⟨m, hm, hval, hparent⟩ := he.old a n' (lt_of_node hn) hn'
    obtain rfl : n = m := Option.some.inj (hn.symm.trans hm)
    rw [hval]
    refine .cons hn' (hparent ▸ ih ?_)
    intro p hp
    exact hs.node_of_link hn' (hparent ▸ hp)

/-- A live node that links to a chain is in front of it. -/
theorem Sound.chain_cons {R : Multiset Addr} {h h' : Heap α} (hs : Sound R h')
    (he : Evolves h h') {r : Option Addr} {ps : List (Addr × α)} (hc : Chain h r ps) {a : Addr}
    {n : Node α} (hn : h'.node a = some n) (hr : n.parent = r) :
    Chain h' (some a) ((a, n.val) :: ps) := by
  subst hr
  exact .cons hn (hs.chain_of_evolves he hc fun p hp => hs.node_of_link hn hp)

/-! ## Evolution -/

namespace Evolves

theorem refl (h : Heap α) : Evolves h h := ⟨Nat.le_refl _, fun _ n' _ hn => ⟨n', hn, rfl, rfl⟩⟩

theorem trans {h h' h'' : Heap α} (he : Evolves h h') (he' : Evolves h' h'') :
    Evolves h h'' := by
  refine ⟨he.length_le.trans he'.length_le, ?_⟩
  intro a n'' ha hn''
  obtain ⟨n', hn', hval', hparent'⟩ := he'.old a n'' (Nat.lt_of_lt_of_le ha he.length_le) hn''
  obtain ⟨n, hn, hval, hparent⟩ := he.old a n' ha hn'
  exact ⟨n, hn, hval.trans hval', hparent.trans hparent'⟩

theorem alloc (h : Heap α) (val : α) (parent : Option Addr) :
    Evolves h (h.alloc val parent).1 := by
  refine ⟨by simp [Heap.alloc], ?_⟩
  intro a n' ha hn'
  rw [Heap.alloc, node_append, if_neg (Nat.ne_of_gt ha)] at hn'
  exact ⟨n', hn', rfl, rfl⟩

theorem set_count {h : Heap α} {a : Addr} {n : Node α} (hn : h.node a = some n) (count : Nat) :
    Evolves h (h.set a (some { n with count := count })) := by
  refine ⟨(List.length_set ..).ge, ?_⟩
  intro b n' _ hn'
  rw [node_set (lt_of_node hn)] at hn'
  split_ifs at hn' with hab
  · subst hab
    obtain rfl := Option.some.inj hn'
    exact ⟨n, hn, rfl, rfl⟩
  · exact ⟨n', hn', rfl, rfl⟩

theorem free {h : Heap α} {a : Addr} {n : Node α} (hn : h.node a = some n) :
    Evolves h (h.free a) := by
  refine ⟨(List.length_set ..).ge, ?_⟩
  intro b n' _ hn'
  rw [Heap.free, node_set (lt_of_node hn)] at hn'
  split_ifs at hn' with hab
  exact ⟨n', hn', rfl, rfl⟩

theorem releaseFrom (fuel : Nat) :
    ∀ (h : Heap α) (r : Option Addr), Evolves h (Heap.releaseFrom fuel h r) := by
  induction fuel with
  | zero =>
    intro h r
    cases r <;> exact .refl h
  | succ fuel ih =>
    intro h r
    cases r with
    | none => exact .refl h
    | some a =>
      rw [Heap.releaseFrom]
      cases hn : h.node a with
      | none => exact .refl h
      | some n =>
        dsimp only
        split_ifs
        · exact (Evolves.free hn).trans (ih _ _)
        · exact .set_count hn _

end Evolves

/-! ## Updates -/

/-- A count is changed as the references to the node are. -/
theorem Sound.set_count {R R' : Multiset Addr} {h : Heap α} (hs : Sound R h) {a : Addr}
    {n : Node α} (hn : h.node a = some n) {count : Nat} (hpos : 0 < count)
    (hR : ∀ b, R'.count b + (if a = b then n.count else 0) =
      R.count b + if a = b then count else 0) :
    Sound R' (h.set a (some { n with count := count })) := by
  have ha := lt_of_node hn
  refine ⟨?_, ?_, ?_⟩
  · intro b
    have hexact := hs.exact b
    have hlinks := linksTo_set ha (some { n with count := count }) b
    have hlink : linkOf (some { n with count := count }) = linkOf (h.node a) := by
      rw [hn]
      rfl
    have hcount := hR b
    rw [hlink] at hlinks
    rw [node_set ha]
    split_ifs at hcount ⊢ with hab
    · subst hab
      rw [hn] at hexact
      simp only [countOf, Option.elim_some] at hexact ⊢
      omega
    · omega
  · intro b n' hn'
    rw [node_set ha] at hn'
    split_ifs at hn' with hab
    · obtain rfl := Option.some.inj hn'
      exact hpos
    · exact hs.pos b n' hn'
  · intro b n' p hn' hp
    rw [node_set ha] at hn'
    split_ifs at hn' with hab
    · subst hab
      obtain rfl := Option.some.inj hn'
      exact hs.older a n p hn hp
    · exact hs.older b n' p hn' hp

namespace Update

theorem refl (h : Heap α) (rs : Multiset Addr) : Update h rs h rs := ⟨.refl h, fun _ hs => hs⟩

theorem trans {h h' h'' : Heap α} {rs rs' rs'' : Multiset Addr} (hu : Update h rs h' rs')
    (hu' : Update h' rs' h'' rs'') : Update h rs h'' rs'' :=
  ⟨hu.evolves.trans hu'.evolves, fun R hs => hu'.sound R (hu.sound R hs)⟩

/-- What an owner of `rs` can do can be done by an owner of more. -/
theorem frame {h h' : Heap α} {rs rs' : Multiset Addr} (hu : Update h rs h' rs')
    (other : Multiset Addr) : Update h (rs + other) h' (rs' + other) := by
  refine ⟨hu.evolves, ?_⟩
  intro R hs
  rw [add_assoc] at hs ⊢
  exact hu.sound (other + R) hs

/-- A new node takes over the reference its link holds. -/
theorem alloc (h : Heap α) (val : α) (parent : Option Addr) :
    Update h (refsOf parent) (h.alloc val parent).1 {(h.alloc val parent).2} := by
  refine ⟨.alloc h val parent, ?_⟩
  intro R hs
  have hnew := hs.exact h.length
  rw [node_of_length_le (Nat.le_refl _), Multiset.count_add] at hnew
  have hzero : countOf (none : Option (Node α)) = 0 := rfl
  refine ⟨?_, ?_, ?_⟩
  · intro a
    have hexact := hs.exact a
    rw [Multiset.count_add] at hexact
    have hlink : linkOf (some ⟨val, parent, 1⟩ : Option (Node α)) = parent := rfl
    dsimp only [Heap.alloc]
    rw [node_append, linksTo_append, hlink, Multiset.count_add,
      Multiset.count_singleton]
    split_ifs with hnode ha ha
    · subst ha
      have hone : countOf (some ⟨val, parent, 1⟩ : Option (Node α)) = 1 := rfl
      omega
    · exact absurd hnode.symm ha
    · exact absurd ha.symm hnode
    · omega
  · intro a n hn
    rw [Heap.alloc, node_append] at hn
    split_ifs at hn with ha
    · obtain rfl := Option.some.inj hn
      exact Nat.one_pos
    · exact hs.pos a n hn
  · intro a n p hn hp
    rw [Heap.alloc, node_append] at hn
    split_ifs at hn with ha
    · obtain rfl := Option.some.inj hn
      obtain rfl : parent = some p := hp
      obtain ⟨m, hm⟩ := hs.node_of_root (a := p) (by simp)
      exact ha ▸ lt_of_node hm
    · exact hs.older a n p hn hp

/-- A reference to a live node can be had by whoever reaches it. -/
theorem retain {h : Heap α} {r : Option Addr} (hr : ∀ a, r = some a → ∃ n, h.node a = some n) :
    Update h 0 (h.retain r) (refsOf r) := by
  cases r with
  | none => exact .refl h 0
  | some a =>
    obtain ⟨n, hn⟩ := hr a rfl
    have hretain : h.retain (some a) = h.set a (some { n with count := n.count + 1 }) := by
      rw [Heap.retain, hn]
    rw [hretain]
    refine ⟨.set_count hn _, fun R hs => ?_⟩
    rw [zero_add] at hs
    refine hs.set_count hn (Nat.succ_pos _) fun b => ?_
    rw [refsOf_some, Multiset.count_add, Multiset.count_singleton]
    split_ifs with hab hba hba
    all_goals first
      | omega
      | exact absurd hba.symm hab
      | exact absurd hab.symm hba

/-- The only reference to a node is given up for the reference its link holds. -/
theorem free {h : Heap α} {a : Addr} {n : Node α} (hn : h.node a = some n) (hone : n.count = 1) :
    Update h {a} (h.free a) (refsOf n.parent) := by
  have ha := lt_of_node hn
  refine ⟨.free hn, fun R hs => ?_⟩
  refine ⟨?_, ?_, ?_⟩
  · intro b
    have hexact := hs.exact b
    have hlinks := linksTo_set ha none b
    have hlink : linkOf (h.node a) = n.parent := by
      rw [hn]
      rfl
    have hnone : linkOf (none : Option (Node α)) = none := rfl
    rw [hlink, hnone, refsOf_none, Multiset.count_zero] at hlinks
    rw [Multiset.count_add, Multiset.count_singleton] at hexact
    rw [Heap.free, node_set ha, Multiset.count_add]
    split_ifs with hab
    · subst hab
      rw [hn, if_pos rfl] at hexact
      simp only [countOf, Option.elim_some, Option.elim_none] at hexact ⊢
      omega
    · rw [if_neg (Ne.symm hab)] at hexact
      omega
  · intro b n' hn'
    rw [Heap.free, node_set ha] at hn'
    split_ifs at hn'
    exact hs.pos b n' hn'
  · intro b n' p hn' hp
    rw [Heap.free, node_set ha] at hn'
    split_ifs at hn'
    exact hs.older b n' p hn' hp

/-- A reference goes, and with the last one the node and the reference of its link. The induction
is on the fuel: a link goes to a smaller address. -/
theorem releaseFrom (fuel : Nat) : ∀ (h : Heap α) (r : Option Addr), (∀ a, r = some a → a < fuel) →
    Update h (refsOf r) (Heap.releaseFrom fuel h r) 0 := by
  induction fuel with
  | zero =>
    intro h r hr
    cases r with
    | none => exact .refl h 0
    | some a => exact absurd (hr a rfl) (Nat.not_lt_zero a)
  | succ fuel ih =>
    intro h r hr
    refine ⟨.releaseFrom _ h r, fun R hs => ?_⟩
    cases r with
    | none => exact hs
    | some a =>
      obtain ⟨n, hn⟩ := hs.node_of_root (a := a) (by simp)
      rw [Heap.releaseFrom, hn]
      dsimp only
      split_ifs with hlast
      · have hone : n.count = 1 := Nat.le_antisymm hlast (hs.pos a n hn)
        have hparent : ∀ p, n.parent = some p → p < fuel := by
          intro p hp
          exact Nat.lt_of_lt_of_le (hs.older a n p hn hp) (Nat.le_of_lt_succ (hr a rfl))
        exact (ih _ _ hparent).sound R ((Update.free hn hone).sound R hs)
      · refine hs.set_count hn (by omega) fun b => ?_
        rw [zero_add, refsOf_some, Multiset.count_add, Multiset.count_singleton]
        split_ifs with hab hba hba
        all_goals first
          | omega
          | exact absurd hba.symm hab
          | exact absurd hab.symm hba

/-- A reference goes. -/
theorem release (h : Heap α) (r : Option Addr) : Update h (refsOf r) (h.release r) 0 := by
  refine ⟨.releaseFrom _ h r, fun R hs => ?_⟩
  refine (Update.releaseFrom h.length h r ?_).sound R hs
  rintro a rfl
  obtain ⟨n, hn⟩ := hs.node_of_root (a := a) (by simp)
  exact lt_of_node hn

end Update

/-! ## Live nodes -/

namespace Sound

variable {R : Multiset Addr} {h : Heap α}

theorem exists_child {a : Addr} (hlinks : 0 < h.linksTo a) :
    ∃ b n, h.node b = some n ∧ n.parent = some a := by
  rw [Heap.linksTo, List.count_pos_iff] at hlinks
  obtain ⟨c, hc, hlink⟩ := List.mem_map.mp hlinks
  obtain ⟨n, rfl, hp⟩ := Option.bind_eq_some_iff.mp hlink
  obtain ⟨b, hb, hget⟩ := List.getElem_of_mem hc
  refine ⟨b, n, ?_, hp⟩
  rw [Heap.node, entry, List.getElem?_eq_getElem hb, hget]
  rfl

/-- The nodes along the links from a reference are live, each link leading on. -/
theorem mem_walk_of_link (hs : Sound R h) {r a b : Addr} {n : Node α}
    (hr : ∃ m, h.node r = some m) (hb : b ∈ (h.walk (some r)).map Prod.fst)
    (hn : h.node b = some n) (hp : n.parent = some a) :
    a ∈ (h.walk (some r)).map Prod.fst := by
  obtain ⟨m, hm⟩ := hr
  obtain ⟨ps, hps⟩ := hs.exists_chain r m hm
  rw [hs.walk_eq hps] at hb ⊢
  clear hm
  generalize hstart : some r = start at hps
  clear hstart
  induction hps with
  | nil => cases hb
  | @cons c k ps hk hrest ih =>
    rw [List.map_cons, List.mem_cons] at hb ⊢
    rcases hb with rfl | hb
    · obtain rfl := Option.some.inj (hk.symm.trans hn)
      rw [hp] at hrest
      cases hrest
      exact .inr List.mem_cons_self
    · exact .inr (ih hb)

/-- **The live nodes** are those along the links from the references: none goes before its last
reference does, and none stays behind. -/
theorem live_iff (hs : Sound R h) (a : Addr) :
    (∃ n, h.node a = some n) ↔ ∃ r ∈ R, a ∈ (h.walk (some r)).map Prod.fst := by
  constructor
  · rintro ⟨n, hn⟩
    induction hd : h.length - a using Nat.strong_induction_on generalizing a n with
    | _ d ih =>
      have hpos := hs.pos a n hn
      have hexact := hs.exact a
      rw [hn] at hexact
      have hcount : n.count = R.count a + h.linksTo a := hexact
      by_cases hroot : a ∈ R
      · obtain ⟨ps, hps⟩ := hs.exists_chain a n hn
        refine ⟨a, hroot, ?_⟩
        rw [hs.walk_eq hps]
        cases hps
        exact List.mem_cons_self
      · have hlinks : 0 < h.linksTo a := by
          rw [Multiset.count_eq_zero_of_notMem hroot] at hcount
          omega
        obtain ⟨b, m, hm, hp⟩ := exists_child hlinks
        have hlt : h.length - b < d := by
          have hab := hs.older b m a hm hp
          have hb := lt_of_node hm
          rw [← hd]
          exact Nat.sub_lt_sub_left (Nat.lt_trans hab hb) hab
        obtain ⟨r, hr, hmem⟩ := ih _ hlt b m hm rfl
        exact ⟨r, hr, hs.mem_walk_of_link (hs.node_of_root hr) hmem hm hp⟩
  · rintro ⟨r, hr, hmem⟩
    obtain ⟨m, hm⟩ := hs.node_of_root hr
    obtain ⟨ps, hps⟩ := hs.exists_chain r m hm
    rw [hs.walk_eq hps] at hmem
    clear hm
    generalize hstart : some r = start at hps
    clear hstart
    induction hps with
    | nil => cases hmem
    | @cons c k ps hk _ ih =>
      rw [List.map_cons, List.mem_cons] at hmem
      rcases hmem with rfl | hmem
      · exact ⟨k, hk⟩
      · exact ih hmem

/-- There are no more live nodes than the references lead to. -/
theorem length_live_le (hs : Sound R h) :
    h.live.length ≤ (R.map fun r => (h.walk (some r)).length).sum := by
  have hnodup : h.live.Nodup := List.nodup_range.filter _
  have hsubset : (h.live : Multiset Addr) ⊆
      R.bind fun r => ((h.walk (some r)).map Prod.fst : Multiset Addr) := by
    intro a ha
    have hlive := (List.mem_filter.mp (Multiset.mem_coe.mp ha)).2
    obtain ⟨r, hr, hmem⟩ := (hs.live_iff a).mp (Option.isSome_iff_exists.mp hlive)
    exact Multiset.mem_bind.mpr ⟨r, hr, Multiset.mem_coe.mpr hmem⟩
  have hle := Multiset.card_le_card
    ((Multiset.le_iff_subset (Multiset.coe_nodup.mpr hnodup)).mpr hsubset)
  rw [Multiset.coe_card, Multiset.card_bind] at hle
  simpa [Function.comp_def] using hle

end Sound

end RefHeap
