import LunaOS.Lib.Linearize
import Mathlib.Data.List.Nodup
import Mathlib.Data.List.Perm.Basic

/-!
An object that lends things out under keys and takes them back by key. Its replies may give
a thing, its operations may take one; a thing is live from the reply that gives it until an
operation takes its key. Where no thread asks the object to take what it does not hold, a
thing is held by one thread only, and is live as long as it is held. The object is used by
many threads at once, as in `Linearize`: what is called and what is not yet returned is on
its way.
-/
namespace Loans
open Linearize

variable {Thread Op Reply State Thing Key : Type} [DecidableEq Thread] [DecidableEq Key]

/-- What the object lends: the thing in a reply, the key that an operation takes. -/
structure Terms (Op Reply State Thing Key : Type) where
  gives : Reply → Option Thing
  takes : Op → Option Key
  key : Thing → Key
  Live : State → Thing → Prop

/-- A thing is given under a key of its own, and stays until its key is taken. -/
structure Terms.Kept (T : Terms Op Reply State Thing Key) (apply : State → Op → State × Reply) :
    Prop where
  given : ∀ s op a, T.gives (apply s op).2 = some a → T.Live (apply s op).1 a
  fresh : ∀ s op a b, T.gives (apply s op).2 = some a → T.Live s b → T.key b ≠ T.key a
  frame : ∀ s op b, T.Live s b → T.takes op ≠ some (T.key b) → T.Live (apply s op).1 b

variable (T : Terms Op Reply State Thing Key)

/-- What the thread `t` holds after an event. -/
def hold (t : Thread) (held : List Thing) : Event Thread Op Reply → List Thing
  | .call u op =>
      if u = t then
        match T.takes op with
        | some x => held.eraseP fun a => T.key a = x
        | none => held
      else held
  | .ret u reply => if u = t then held ++ (T.gives reply).toList else held

def holds (t : Thread) (h : List (Event Thread Op Reply)) : List Thing :=
  h.foldl (hold T t) []

theorem holds_concat (t : Thread) (h : List (Event Thread Op Reply))
    (e : Event Thread Op Reply) : holds T t (h ++ [e]) = hold T t (holds T t h) e := by
  rw [holds, List.foldl_append]
  rfl

/-- Whoever asks the object to take something holds it. -/
def Careful (h : List (Event Thread Op Reply)) : Prop :=
  ∀ before t op x, before ++ [.call t op] <+: h → T.takes op = some x →
    x ∈ (holds T t before).map T.key

theorem Careful.before {h : List (Event Thread Op Reply)} {e : Event Thread Op Reply}
    (careful : Careful T (h ++ [e])) : Careful T h :=
  fun before t op x early => careful before t op x (early.trans (List.prefix_append _ _))

/-- What is on its way between a thread and the object. -/
def underWay : Status Op Reply → List Key
  | .idle => []
  | .pending op => (T.takes op).toList
  | .answered reply => (T.gives reply).toList.map T.key

def keysOf (h : List (Event Thread Op Reply)) (status : Thread → Status Op Reply)
    (t : Thread) : List Key :=
  (holds T t h).map T.key ++ underWay T (status t)

/-- Each key is with one thread, and live. -/
structure Exclusive (s : State) (h : List (Event Thread Op Reply))
    (status : Thread → Status Op Reply) : Prop where
  once : ∀ t, (keysOf T h status t).Nodup
  alone : ∀ t u x, x ∈ keysOf T h status t → x ∈ keysOf T h status u → t = u
  live : ∀ t x, x ∈ keysOf T h status t → ∃ a, T.Live s a ∧ T.key a = x
  held : ∀ t a, a ∈ holds T t h → T.Live s a
  given : ∀ t reply a, status t = .answered reply → T.gives reply = some a → T.Live s a

variable {T} {apply : State → Op → State × Reply} {s : State}
  {h : List (Event Thread Op Reply)} {status : Thread → Status Op Reply}

theorem careful_nil : Careful T ([] : List (Event Thread Op Reply)) := by
  intro before t op x early
  exact absurd (List.prefix_nil.mp early) (List.append_ne_nil_of_right_ne_nil _ (by simp))

/-- The last event decides. -/
theorem careful_concat {h : List (Event Thread Op Reply)} {e : Event Thread Op Reply}
    (careful : Careful T h)
    (last : ∀ t op x, e = .call t op → T.takes op = some x → x ∈ (holds T t h).map T.key) :
    Careful T (h ++ [e]) := by
  intro before t op x early taken
  rcases List.prefix_concat_iff.mp early with whole | early
  · obtain ⟨rfl, same⟩ := List.append_inj' whole rfl
    exact last t op x (List.singleton_inj.mp same).symm taken
  · exact careful before t op x early taken

/-- The keys move on their way, and stay with their threads. -/
theorem Exclusive.moved {h' : List (Event Thread Op Reply)}
    {status' : Thread → Status Op Reply} (ex : Exclusive T s h status)
    (same : ∀ t, (keysOf T h' status' t).Perm (keysOf T h status t))
    (held : ∀ t a, a ∈ holds T t h' → T.Live s a)
    (given : ∀ t reply a, status' t = .answered reply → T.gives reply = some a → T.Live s a) :
    Exclusive T s h' status' where
  once t := (same t).nodup_iff.mpr (ex.once t)
  alone t u x mine yours := ex.alone t u x ((same t).mem_iff.mp mine) ((same u).mem_iff.mp yours)
  live t x mine := ex.live t x ((same t).mem_iff.mp mine)
  held := held
  given := given

theorem map_eraseP_key (held : List Thing) (x : Key) :
    (held.eraseP fun a => T.key a = x).map T.key = (held.map T.key).erase x := by
  induction held with
  | nil => rfl
  | cons a held ih =>
      by_cases same : T.key a = x
      · simp [same]
      · simp [same, ih]

theorem holds_other {t u : Thread} (other : t ≠ u) (h : List (Event Thread Op Reply)) (op : Op) :
    holds T u (h ++ [.call t op]) = holds T u h := by
  rw [holds_concat, hold, if_neg other]

/-- A call asks the object to take what the thread holds, if anything. -/
theorem Exclusive.call (ex : Exclusive T s h status) {t : Thread} {op : Op}
    (idle : status t = .idle)
    (careful : ∀ x, T.takes op = some x → x ∈ (holds T t h).map T.key) :
    Exclusive T s (h ++ [.call t op]) (Function.update status t (.pending op)) := by
  refine ex.moved (fun u => ?_) (fun u a inside => ?_) fun u reply a answered => ?_
  · by_cases mine : u = t
    · subst mine
      rw [keysOf, keysOf, holds_concat, hold, if_pos rfl, Function.update_self, idle]
      change (List.map T.key _ ++ (T.takes op).toList).Perm (List.map T.key _ ++ [])
      cases taken : T.takes op with
      | none => exact .refl _
      | some x =>
          change (List.map T.key ((holds T u h).eraseP fun a => T.key a = x) ++ [x]).Perm _
          rw [map_eraseP_key, List.append_nil]
          exact (List.perm_append_singleton x _).trans (List.perm_cons_erase (careful x taken)).symm
    · have other : t ≠ u := fun same => mine same.symm
      rw [keysOf, keysOf, holds_other other, Function.update_of_ne mine]
  · refine ex.held u a ?_
    rw [holds_concat, hold] at inside
    split at inside
    · split at inside
      · exact List.mem_of_mem_eraseP inside
      · exact inside
    · exact inside
  · by_cases mine : u = t
    · rw [mine, Function.update_self] at answered
      cases answered
    · rw [Function.update_of_ne mine] at answered
      exact ex.given u reply a answered

theorem Exclusive.ret (ex : Exclusive T s h status) {t : Thread} {reply : Reply}
    (answered : status t = .answered reply) :
    Exclusive T s (h ++ [.ret t reply]) (Function.update status t .idle) := by
  refine ex.moved (fun u => ?_) (fun u a inside => ?_) fun u reply' a answered' => ?_
  · rw [keysOf, keysOf, holds_concat, hold]
    by_cases mine : u = t
    · subst mine
      rw [if_pos rfl, Function.update_self, answered, underWay, underWay, List.append_nil,
        List.map_append]
    · have other : t ≠ u := fun same => mine same.symm
      rw [if_neg other, Function.update_of_ne mine]
  · rw [holds_concat, hold] at inside
    split at inside
    · rename_i mine
      rcases List.mem_append.mp inside with old | new
      · exact ex.held u a old
      · exact ex.given t reply a answered (Option.mem_toList.mp new)
    · exact ex.held u a inside
  · by_cases mine : u = t
    · rw [mine, Function.update_self] at answered'
      cases answered'
    · rw [Function.update_of_ne mine] at answered'
      exact ex.given u reply' a answered'

section
variable (ex : Exclusive T s h status) {t : Thread} {op : Op} (waits : status t = .pending op)
include ex waits

/-- The key that is taken is with nobody else. -/
theorem Exclusive.takes_ne {u : Thread} {x : Key} (other : u ≠ t)
    (inside : x ∈ keysOf T h status u) : T.takes op ≠ some x := by
  intro taken
  have mine : x ∈ keysOf T h status t := by
    rw [keysOf, waits, underWay, taken]
    exact List.mem_append_right _ (List.mem_singleton.mpr rfl)
  exact other (ex.alone u t x inside mine)

/-- The thread that asks the object to take a key does not hold it any more. -/
theorem Exclusive.takes_not_held {x : Key} (inside : x ∈ (holds T t h).map T.key) :
    T.takes op ≠ some x := by
  intro taken
  have nodup := ex.once t
  rw [keysOf, waits, underWay, taken] at nodup
  exact (List.nodup_append.mp nodup).2.2 x inside x (List.mem_singleton.mpr rfl) rfl

theorem Exclusive.takes_ne_of_held {u : Thread} {x : Key}
    (inside : x ∈ (holds T u h).map T.key) : T.takes op ≠ some x := by
  by_cases mine : u = t
  · exact ex.takes_not_held waits (mine ▸ inside)
  · exact ex.takes_ne waits mine (List.mem_append_left _ inside)

/-- An operation takes effect. -/
theorem Exclusive.perform (kept : T.Kept apply) :
    Exclusive T (apply s op).1 h
      (Function.update status t (.answered (apply s op).2)) := by
  have fresh {u : Thread} {x : Key} {a : Thing} (new : T.gives (apply s op).2 = some a)
      (inside : x ∈ keysOf T h status u) : x ≠ T.key a := by
    obtain ⟨b, live, rfl⟩ := ex.live u x inside
    exact kept.fresh s op a b new live
  have others {u : Thread} (other : u ≠ t) :
      keysOf T h (Function.update status t (.answered (apply s op).2)) u = keysOf T h status u := by
    rw [keysOf, keysOf, Function.update_of_ne other]
  have mine : keysOf T h (Function.update status t (.answered (apply s op).2)) t =
      (holds T t h).map T.key ++ (T.gives (apply s op).2).toList.map T.key := by
    rw [keysOf, Function.update_self, underWay]
  have held {u : Thread} {x : Key} (inside : x ∈ (holds T u h).map T.key) :
      x ∈ keysOf T h status u := List.mem_append_left _ inside
  have split {x : Key}
      (inside : x ∈ keysOf T h (Function.update status t (.answered (apply s op).2)) t) :
      x ∈ (holds T t h).map T.key ∨ ∃ a, T.gives (apply s op).2 = some a ∧ T.key a = x := by
    rw [mine] at inside
    refine (List.mem_append.mp inside).imp_right fun new => ?_
    obtain ⟨a, given, same⟩ := List.mem_map.mp new
    exact ⟨a, Option.mem_toList.mp given, same⟩
  refine ⟨fun u => ?_, fun u v x left right => ?_, fun u x inside => ?_, fun u a inside => ?_,
    fun u reply a answered given => ?_⟩
  · by_cases same : u = t
    · subst same
      rw [mine]
      have once : ((holds T u h).map T.key).Nodup := (List.nodup_append.mp (ex.once u)).1
      cases new : T.gives (apply s op).2 with
      | none => exact (List.append_nil _).symm ▸ once
      | some a =>
          refine List.nodup_append.mpr ⟨once, List.nodup_singleton _, ?_⟩
          intro x inside y last
          rw [List.mem_singleton.mp last]
          exact fresh new (held inside)
    · rw [others same]
      exact ex.once u
  · by_cases same : u = t
    · by_cases same' : v = t
      · exact same.trans same'.symm
      · rw [others same'] at right
        rcases split (same ▸ left) with old | ⟨a, new, rfl⟩
        · exact ex.alone u v x (same.symm ▸ held old) right
        · exact absurd rfl (fresh new right)
    · rw [others same] at left
      by_cases same' : v = t
      · rcases split (same' ▸ right) with old | ⟨a, new, rfl⟩
        · exact ex.alone u v x left (same'.symm ▸ held old)
        · exact absurd rfl (fresh new left)
      · rw [others same'] at right
        exact ex.alone u v x left right
  · by_cases same : u = t
    · subst same
      rcases split inside with old | ⟨a, new, rfl⟩
      · obtain ⟨b, live, rfl⟩ := ex.live u x (held old)
        exact ⟨b, kept.frame s op b live (ex.takes_not_held waits old), rfl⟩
      · exact ⟨a, kept.given s op a new, rfl⟩
    · rw [others same] at inside
      obtain ⟨b, live, rfl⟩ := ex.live u x inside
      exact ⟨b, kept.frame s op b live (ex.takes_ne waits same inside), rfl⟩
  · exact kept.frame s op a (ex.held u a inside)
      (ex.takes_ne_of_held waits (List.mem_map_of_mem inside))
  · by_cases same : u = t
    · rw [same, Function.update_self] at answered
      obtain rfl := Status.answered.inj answered
      exact kept.given s op a given
    · rw [Function.update_of_ne same] at answered
      refine kept.frame s op a (ex.given u reply a answered given) ?_
      refine ex.takes_ne waits same (List.mem_append_right _ ?_)
      rw [answered, underWay, given]
      exact List.mem_singleton.mpr rfl

end

/-- In every history of careful threads that the object explains, what is held is held once
and live. -/
theorem exclusive_of_explains (kept : T.Kept apply) {log : List (Entry Thread Op Reply)}
    (seen : Explains apply s h log status) (careful : Careful T h) :
    Exclusive T (replay apply s log) h status := by
  induction seen with
  | start => exact ⟨fun _ => .nil, nofun, nofun, nofun, nofun⟩
  | @call h log status t op _ idle ih =>
      exact (ih careful.before).call idle fun x taken =>
        careful h t op x List.prefix_rfl taken
  | perform _ waits ih =>
      rw [replay_concat]
      exact (ih careful).perform waits kept
  | ret _ answered ih => exact (ih careful.before).ret answered

end Loans
