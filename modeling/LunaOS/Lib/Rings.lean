import Mathlib.Data.List.Chain
import Mathlib.Data.List.Nodup
import Mathlib.Logic.Function.Basic
import Mathlib.Logic.Relation

/-!
Intrusive doubly linked lists. A heap gives every node two links, which may be
null; a list is a ring of nodes, its head among them. Insertion and removal write
single links and fail where they would follow a null one. On a ring they act as
insertion into and removal from the list of its nodes, and leave the links of all
other nodes alone.
-/
namespace Rings

universe u
variable {ν : Type u}

structure Link (ν : Type u) where
  prev : Option ν := none
  next : Option ν := none

/-- The links of every node. -/
abbrev Heap (ν : Type u) := ν → Link ν

def Edge (h : Heap ν) (a b : ν) : Prop :=
  (h a).next = some b ∧ (h b).prev = some a

/-- The nodes of a ring in their order, from any one of them. -/
def Ring (h : Heap ν) (nodes : List ν) : Prop :=
  nodes.Nodup ∧ (nodes ++ nodes.take 1).IsChain (Edge h)

/-- The node `x` is met when the links are followed from `list`. -/
def Linked (h : Heap ν) (list x : ν) : Prop :=
  Relation.TransGen (fun a b => (h a).next = some b) list x

section
variable [DecidableEq ν]

def init (h : Heap ν) (list : ν) : Heap ν :=
  Function.update h list ⟨some list, some list⟩

def setNext (h : Heap ν) (x : ν) (next : Option ν) : Heap ν :=
  Function.update h x { h x with next := next }

def setPrev (h : Heap ν) (x : ν) (prev : Option ν) : Heap ν :=
  Function.update h x { h x with prev := prev }

def insert (h : Heap ν) (list elm : ν) : Option (Heap ν) :=
  let h := Function.update h elm ⟨some list, (h list).next⟩
  let h := setNext h list (some elm)
  (h elm).next.map fun next => setPrev h next (some elm)

/-- Links `elm` before `list`, at the end of the ring that starts there. -/
def insertLast (h : Heap ν) (list elm : ν) : Option (Heap ν) :=
  (h list).prev.bind fun last => insert h last elm

def remove (h : Heap ν) (elm : ν) : Option (Heap ν) :=
  match (h elm).prev, (h elm).next with
  | some prev, some next =>
      let h := setPrev (setNext h prev (some next)) next (some prev)
      some (Function.update h elm {})
  | _, _ => none

theorem setNext_next (h : Heap ν) (x y : ν) (next : Option ν) :
    (setNext h x next y).next = if y = x then next else (h y).next := by
  unfold setNext
  by_cases e : y = x
  · rw [e, Function.update_self, if_pos rfl]
  · rw [Function.update_of_ne e, if_neg e]

theorem setNext_prev (h : Heap ν) (x y : ν) (next : Option ν) :
    (setNext h x next y).prev = (h y).prev := by
  unfold setNext
  by_cases e : y = x
  · rw [e, Function.update_self]
  · rw [Function.update_of_ne e]

theorem setPrev_next (h : Heap ν) (x y : ν) (prev : Option ν) :
    (setPrev h x prev y).next = (h y).next := by
  unfold setPrev
  by_cases e : y = x
  · rw [e, Function.update_self]
  · rw [Function.update_of_ne e]

theorem setPrev_prev (h : Heap ν) (x y : ν) (prev : Option ν) :
    (setPrev h x prev y).prev = if y = x then prev else (h y).prev := by
  unfold setPrev
  by_cases e : y = x
  · rw [e, Function.update_self, if_pos rfl]
  · rw [Function.update_of_ne e, if_neg e]

end

/-! The links of one ring. -/

variable {h h' : Heap ν}

/-- A chain only reads the links between its nodes. -/
theorem chain_frame {a : ν} {l : List ν}
    (next : ∀ x ∈ (a :: l).dropLast, (h' x).next = (h x).next)
    (prev : ∀ x ∈ l, (h' x).prev = (h x).prev)
    (chain : (a :: l).IsChain (Edge h)) : (a :: l).IsChain (Edge h') := by
  induction l generalizing a with
  | nil => exact List.isChain_singleton a
  | cons b l ih =>
      obtain ⟨edge, rest⟩ := List.isChain_cons_cons.mp chain
      refine List.isChain_cons_cons.mpr ⟨⟨?_, ?_⟩, ih ?_ ?_ rest⟩
      · exact (next a List.mem_cons_self).trans edge.1
      · exact (prev b List.mem_cons_self).trans edge.2
      · exact fun x hx => next x (List.mem_cons_of_mem a hx)
      · exact fun x hx => prev x (List.mem_cons_of_mem b hx)

variable {A B D : List ν} {a b : ν}

/-- The ring `A ++ a :: B` cut open behind `a`, where `b` follows. -/
theorem take_one_append (A B : List ν) (a : ν) :
    (A ++ a :: B).take 1 = (A ++ [a]).take 1 := by
  cases A <;> rfl

theorem exists_successor (A B : List ν) (a : ν) :
    ∃ b D, B ++ (A ++ [a]).take 1 = b :: D := by
  cases B with
  | cons b B => exact ⟨b, _, rfl⟩
  | nil =>
      cases A with
      | nil => exact ⟨a, [], rfl⟩
      | cons t A => exact ⟨t, [], rfl⟩

theorem successor_mem (after : B ++ (A ++ [a]).take 1 = b :: D) : b ∈ A ++ a :: B := by
  have member : b ∈ B ++ (A ++ [a]).take 1 := after ▸ List.mem_cons_self
  grind [List.mem_of_mem_take]

theorem Ring.open (ring : Ring h (A ++ a :: B)) (after : B ++ (A ++ [a]).take 1 = b :: D) :
    (A ++ [a]).IsChain (Edge h) ∧ Edge h a b ∧ (b :: D).IsChain (Edge h) := by
  have chain := ring.2
  rw [take_one_append, List.append_assoc, List.cons_append, after] at chain
  exact List.isChain_append_cons_cons.mp chain

/-- The part up to `a` survives a change of the links from `a` to `b`. -/
theorem left_frame (nodup : (A ++ a :: B).Nodup) (after : B ++ (A ++ [a]).take 1 = b :: D)
    (next : ∀ x ∈ A ++ a :: B, x ≠ a → (h' x).next = (h x).next)
    (prev : ∀ x ∈ A ++ a :: B, x ≠ b → (h' x).prev = (h x).prev)
    (left : (A ++ [a]).IsChain (Edge h)) : (A ++ [a]).IsChain (Edge h') := by
  cases A with
  | nil => exact List.isChain_singleton a
  | cons t A =>
      have b_new : b ∉ A ++ [a] := by
        cases B with
        | nil =>
            obtain ⟨rfl, _⟩ := List.cons.inj after
            exact (List.nodup_cons.mp nodup).1
        | cons c B =>
            obtain ⟨rfl, _⟩ := List.cons.inj after
            grind
      refine chain_frame (fun x member => ?_) (fun x (member : x ∈ A ++ [a]) => ?_) left
      · change x ∈ ((t :: A) ++ [a]).dropLast at member
        rw [List.dropLast_concat] at member
        refine next x (List.mem_append_left _ member) ?_
        rintro rfl
        grind
      · refine prev x ?_ ?_
        · grind
        · rintro rfl
          exact b_new member

/-- So does the part from `b` on. -/
theorem right_frame (nodup : (A ++ a :: B).Nodup) (after : B ++ (A ++ [a]).take 1 = b :: D)
    (next : ∀ x ∈ A ++ a :: B, x ≠ a → (h' x).next = (h x).next)
    (prev : ∀ x ∈ A ++ a :: B, x ≠ b → (h' x).prev = (h x).prev)
    (right : (b :: D).IsChain (Edge h)) : (b :: D).IsChain (Edge h') := by
  cases B with
  | nil =>
      have short : D = [] := by cases A <;> simp_all
      rw [short]
      exact List.isChain_singleton b
  | cons c B =>
      obtain ⟨rfl, rfl⟩ := List.cons.inj after
      obtain ⟨t, top⟩ : ∃ t, (A ++ [a]).take 1 = [t] ∧ t ∈ A ++ [a] := by
        cases A <;> simp
      rw [top.1] at right ⊢
      refine chain_frame (fun x member => ?_) (fun x (member : x ∈ B ++ [t]) => ?_) right
      · change x ∈ ((c :: B) ++ [t]).dropLast at member
        rw [List.dropLast_concat] at member
        refine next x (List.mem_append_right _ (List.mem_cons_of_mem a member)) ?_
        rintro rfl
        grind
      · refine prev x ?_ ?_
        · grind
        · rintro rfl
          grind

section
variable [DecidableEq ν]

theorem ring_init (h : Heap ν) (list : ν) : Ring (init h list) [list] := by
  refine ⟨List.nodup_singleton list, List.isChain_pair.mpr ⟨?_, ?_⟩⟩ <;>
    rw [init, Function.update_self]

theorem Ring.insert (ring : Ring h (A ++ a :: B)) {e : ν} (fresh : e ∉ A ++ a :: B) :
    ∃ h', Rings.insert h a e = some h' ∧ Ring h' (A ++ a :: e :: B) ∧
      ∀ x, x ∉ A ++ a :: e :: B → h' x = h x := by
  obtain ⟨b, D, after⟩ := exists_successor A B a
  obtain ⟨left, edge, right⟩ := ring.open after
  have ae : a ≠ e := by
    rintro rfl
    exact fresh (List.mem_append_right _ List.mem_cons_self)
  have b_old := successor_mem after
  have be : b ≠ e := by
    rintro rfl
    exact fresh b_old
  let h₁ := Function.update h e ⟨some a, (h a).next⟩
  let h₂ := setPrev (setNext h₁ a (some e)) b (some e)
  have inserted : Rings.insert h a e = some h₂ := by
    have next : (setNext h₁ a (some e) e).next = some b := by
      rw [setNext_next, if_neg ae.symm]
      change (Function.update h e _ e).next = some b
      rw [Function.update_self]
      exact edge.1
    simp only [Rings.insert]
    rw [next]
    rfl
  have h₂_next (x : ν) : (h₂ x).next =
      if x = a then some e else if x = e then some b else (h x).next := by
    simp only [h₂, setPrev_next, setNext_next, h₁]
    by_cases xe : x = e
    · rw [xe, Function.update_self, edge.1, if_pos rfl]
    · rw [Function.update_of_ne xe, if_neg xe]
  have h₂_prev (x : ν) : (h₂ x).prev =
      if x = b then some e else if x = e then some a else (h x).prev := by
    simp only [h₂, setPrev_prev, setNext_prev, h₁]
    by_cases xe : x = e
    · rw [xe, Function.update_self, if_pos rfl]
    · rw [Function.update_of_ne xe, if_neg xe]
  refine ⟨h₂, inserted, ⟨?_, ?_⟩, ?_⟩
  · have := ring.1
    grind
  · have next : ∀ x ∈ A ++ a :: B, x ≠ a → (h₂ x).next = (h x).next := by
      intro x member xa
      rw [h₂_next, if_neg xa, if_neg]
      rintro rfl
      exact fresh member
    have prev : ∀ x ∈ A ++ a :: B, x ≠ b → (h₂ x).prev = (h x).prev := by
      intro x member xb
      rw [h₂_prev, if_neg xb, if_neg]
      rintro rfl
      exact fresh member
    rw [take_one_append, List.append_assoc, List.cons_append, List.cons_append, after]
    refine List.isChain_append_cons_cons.mpr
      ⟨left_frame ring.1 after next prev left, ⟨?_, ?_⟩, List.isChain_cons_cons.mpr
        ⟨⟨?_, ?_⟩, right_frame ring.1 after next prev right⟩⟩
    · rw [h₂_next, if_pos rfl]
    · rw [h₂_prev, if_neg be.symm, if_pos rfl]
    · rw [h₂_next, if_neg ae.symm, if_pos rfl]
    · rw [h₂_prev, if_pos rfl]
  · intro x other
    have xa : x ≠ a := by grind
    have xe : x ≠ e := by grind
    have xb : x ≠ b := by grind
    simp only [h₂, h₁, setPrev, setNext]
    rw [Function.update_of_ne xb, Function.update_of_ne xa, Function.update_of_ne xe]

theorem Ring.insertHead {list : ν} {l : List ν} (ring : Ring h (list :: l)) {e : ν}
    (fresh : e ∉ list :: l) :
    ∃ h', Rings.insert h list e = some h' ∧ Ring h' (list :: e :: l) := by
  obtain ⟨h', inserted, ring', _⟩ := Ring.insert (show Ring h ([] ++ list :: l) from ring) fresh
  exact ⟨h', inserted, ring'⟩

/-- At the end of the ring that starts at `list`. -/
theorem Ring.insertLast {list : ν} {l : List ν} (ring : Ring h (list :: l)) {e : ν}
    (fresh : e ∉ list :: l) :
    ∃ h', Rings.insertLast h list e = some h' ∧ Ring h' (list :: (l ++ [e])) ∧
      ∀ x, x ∉ list :: (l ++ [e]) → h' x = h x := by
  obtain ⟨A, a, split⟩ : ∃ A a, list :: l = A ++ [a] :=
    ⟨_, _, (List.dropLast_append_getLast (List.cons_ne_nil list l)).symm⟩
  rw [split] at ring fresh
  have after : [] ++ (A ++ [a]).take 1 = [list] := by
    rw [← split]
    rfl
  obtain ⟨_, edge, _⟩ := ring.open after
  obtain ⟨h', inserted, ring', frame⟩ := ring.insert fresh
  have grown : A ++ [a, e] = list :: (l ++ [e]) := by
    rw [← List.cons_append, split, List.append_assoc]
    rfl
  rw [grown] at ring' frame
  refine ⟨h', ?_, ring', frame⟩
  rw [Rings.insertLast, edge.2]
  exact inserted

theorem Ring.remove {x : ν} (ring : Ring h (A ++ a :: x :: B)) :
    ∃ h', Rings.remove h x = some h' ∧ Ring h' (A ++ a :: B) ∧
      ∀ y, y ∉ A ++ a :: x :: B → h' y = h y := by
  obtain ⟨b, D, after⟩ := exists_successor A B a
  have after' : (x :: B) ++ (A ++ [a]).take 1 = x :: b :: D := by
    rw [List.cons_append, after]
  obtain ⟨left, edge, rest⟩ := ring.open after'
  obtain ⟨edge', right⟩ := List.isChain_cons_cons.mp rest
  have nodup : (A ++ a :: B).Nodup ∧ x ∉ A ++ a :: B := by
    have := ring.1
    grind
  have b_old := successor_mem after
  have xa : x ≠ a := by grind
  have xb : x ≠ b := by
    rintro rfl
    exact nodup.2 b_old
  let h' := Function.update (setPrev (setNext h a (some b)) b (some a)) x {}
  have removed : Rings.remove h x = some h' := by
    simp only [Rings.remove, edge.2, edge'.1, h']
  have h'_next (y : ν) (yx : y ≠ x) :
      (h' y).next = if y = a then some b else (h y).next := by
    simp only [h', Function.update_of_ne yx, setPrev_next, setNext_next]
  have h'_prev (y : ν) (yx : y ≠ x) :
      (h' y).prev = if y = b then some a else (h y).prev := by
    simp only [h', Function.update_of_ne yx, setPrev_prev, setNext_prev]
  refine ⟨h', removed, ⟨nodup.1, ?_⟩, ?_⟩
  · have outside : ∀ y ∈ A ++ a :: B, y ≠ x := by
      rintro y member rfl
      exact nodup.2 member
    have next : ∀ y ∈ A ++ a :: B, y ≠ a → (h' y).next = (h y).next := by
      intro y member ya
      rw [h'_next y (outside y member), if_neg ya]
    have prev : ∀ y ∈ A ++ a :: B, y ≠ b → (h' y).prev = (h y).prev := by
      intro y member yb
      rw [h'_prev y (outside y member), if_neg yb]
    rw [take_one_append, List.append_assoc, List.cons_append, after]
    refine List.isChain_append_cons_cons.mpr
      ⟨left_frame nodup.1 after next prev left, ⟨?_, ?_⟩,
        right_frame nodup.1 after next prev right⟩
    · rw [h'_next a xa.symm, if_pos rfl]
    · rw [h'_prev b xb.symm, if_pos rfl]
  · intro y other
    have ya : y ≠ a := by grind
    have yx : y ≠ x := by grind
    have yb : y ≠ b := by grind
    simp only [h', setPrev, setNext]
    rw [Function.update_of_ne yx, Function.update_of_ne yb, Function.update_of_ne ya]

/-- Any node but the head of the ring may be removed. -/
theorem Ring.removeMember {list x : ν} {P Q : List ν} (ring : Ring h (list :: (P ++ x :: Q))) :
    ∃ h', Rings.remove h x = some h' ∧ Ring h' (list :: (P ++ Q)) := by
  obtain ⟨A, a, split⟩ : ∃ A a, list :: P = A ++ [a] :=
    ⟨_, _, (List.dropLast_append_getLast (List.cons_ne_nil list P)).symm⟩
  have gap (R : List ν) : list :: (P ++ R) = A ++ a :: R := by
    rw [← List.cons_append, split, List.append_assoc]
    rfl
  rw [gap] at ring
  obtain ⟨h', removed, ring', _⟩ := ring.remove
  rw [← gap] at ring'
  exact ⟨h', removed, ring'⟩

end

/-! What a ring contains. -/

theorem Ring.frame {nodes : List ν} (ring : Ring h nodes) (same : ∀ x ∈ nodes, h' x = h x) :
    Ring h' nodes := by
  refine ⟨ring.1, ring.2.imp_of_mem_imp fun x y x_mem y_mem edge => ?_⟩
  have inside (z : ν) (member : z ∈ nodes ++ nodes.take 1) : h' z = h z := by
    cases List.mem_append.mp member with
    | inl here => exact same z here
    | inr here => exact same z (List.mem_of_mem_take here)
  unfold Edge
  rw [inside x x_mem, inside y y_mem]
  exact edge

/-- Behind the head stands the first node, or the head itself when there is none. -/
theorem Ring.head_next {list : ν} {l : List ν} (ring : Ring h (list :: l)) :
    (h list).next = (l ++ [list]).head? := by
  have chain := ring.2
  cases l with
  | nil => exact (List.isChain_cons_cons.mp chain).1.1
  | cons x l => exact (List.isChain_cons_cons.mp chain).1.1

/-- Following the links from the head meets every other node. -/
theorem Ring.linked_of_mem {list x : ν} {l : List ν} (ring : Ring h (list :: l))
    (member : x ∈ l) : Linked h list x := by
  have chain : (list :: l).IsChain (fun a b => Linked h a b) := by
    refine (List.IsChain.left_of_append ring.2).imp fun a b edge => ?_
    exact Relation.TransGen.single edge.1
  have trans : Trans (Linked h) (Linked h) (Linked h) := ⟨Relation.TransGen.trans⟩
  exact List.rel_of_pairwise_cons chain.pairwise member

/-- Following the links never leaves the ring. -/
theorem Ring.linked_mem {nodes : List ν} (ring : Ring h nodes) {list x : ν}
    (start : list ∈ nodes) (linked : Linked h list x) : x ∈ nodes := by
  have next_mem (y z : ν) (member : y ∈ nodes) (next : (h y).next = some z) : z ∈ nodes := by
    obtain ⟨A, B, rfl⟩ := List.append_of_mem member
    obtain ⟨b, D, after⟩ := exists_successor A B y
    obtain ⟨_, edge, _⟩ := ring.open after
    obtain rfl := Option.some.inj (edge.1.symm.trans next)
    exact successor_mem after
  induction linked with
  | single next => exact next_mem _ _ start next
  | tail _ next ih => exact next_mem _ _ ih next

end Rings
