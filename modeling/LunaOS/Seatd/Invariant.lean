import LunaOS.Seatd.Outcomes

/-!
The invariant of the server. `Seating` ties the client table to the descriptors
the kernel has open, `Sourced` ties both to the dispatch sources; neither says
anything of a source that is left over. `Settled` does: an uncancelled source
occupies its slot, or it is between its two steps and has seen its client leave.
Every outcome but the test keeps all three; the test keeps `Settled` exactly when
a source that has seen its client leave still finds its slot free.
-/
namespace LunaOS.Seatd
open Slots

namespace Server

def SourceAt (s : Server) (k : Nat) (src : Source) : Prop :=
  s.sources[k]? = some src

structure Seating (s : Server) : Prop where
  active : ∀ i, (s.clients i).active = true ↔ 0 ≤ (s.clients i).fd
  opened : ∀ i, 0 ≤ (s.clients i).fd → ∃ c, s.descriptors (s.clients i).fd = some c
  nonneg : ∀ fd c, s.descriptors fd = some c → 0 ≤ fd
  distinct : ∀ i j, 0 ≤ (s.clients i).fd → (s.clients i).fd = (s.clients j).fd → i = j
  conn_inj : ∀ fd fd' c, s.descriptors fd = some c → s.descriptors fd' = some c → fd = fd'
  conn_lt : ∀ fd c, s.descriptors fd = some c → c < s.arrivals
  roster : ∀ c, c ∈ s.admitted ∧ c ∉ s.departed ↔ ∃ fd, s.descriptors fd = some c
  departed_lt : ∀ c ∈ s.departed, c < s.arrivals

structure Sourced (s : Server) : Prop where
  source : ∀ fd c, s.descriptors fd = some c → ∃ k src, s.SourceAt k src ∧
    src.conn = c ∧ src.cancelled = false ∧ src.fd = fd ∧ (s.clients src.slot).fd = fd
  conn_lt : ∀ k src, s.SourceAt k src → src.conn < s.arrivals
  source_inj : ∀ k k' src src', s.SourceAt k src → s.SourceAt k' src' →
    src.conn = src'.conn → k = k'
  alive : ∀ k src, s.SourceAt k src → src.running = true → src.cancelled = false
  gone : ∀ k src fd, s.SourceAt k src → src.left = true → s.descriptors fd ≠ some src.conn
  busy : ∀ k src, s.SourceAt k src → src.running = true → src.left = false → s.Occupies src

def Settled (s : Server) : Prop :=
  ∀ k src, s.SourceAt k src → src.cancelled = false →
    (src.running = true ∧ src.left = true) ∨ s.Occupies src

variable {s s' : Server}

theorem seating_start : start.Seating where
  active := by intro i; simp [start]
  opened := by intro i held; simp [start] at held
  nonneg := by intro fd c held; cases held
  distinct := by intro i j held; simp [start] at held
  conn_inj := by intro fd fd' c held; cases held
  conn_lt := by intro fd c held; cases held
  roster := by intro c; simp [start]
  departed_lt := by intro c gone; cases gone

theorem sourced_start : start.Sourced where
  source := by intro fd c held; cases held
  conn_lt := by intro k src found; cases found
  source_inj := by intro k k' src src' found; cases found
  alive := by intro k src found; cases found
  gone := by intro k src fd found; cases found
  busy := by intro k src found; cases found

/-! Replacing one source. -/

theorem sourceAt_set {k : Nat} {old : Source} (found : s.SourceAt k old) (new : Source)
    (k' : Nat) (src : Source) :
    ({ s with sources := s.sources.set k new } : Server).SourceAt k' src ↔
      (k' = k ∧ src = new) ∨ (k' ≠ k ∧ s.SourceAt k' src) := by
  have bound : k < s.sources.length := (List.getElem?_eq_some_iff.mp found).1
  unfold SourceAt
  by_cases here : k' = k
  · subst here
    simp [List.getElem?_set_self bound, eq_comm]
  · simp [List.getElem?_set_ne (Ne.symm here), here]

/-- A source may be replaced by one for the same client and slot that is cancelled
only if the client is gone. -/
theorem Sourced.replace (h : s.Sourced) {k : Nat} {old new : Source}
    (found : s.SourceAt k old) (conn : new.conn = old.conn) (fd : new.fd = old.fd)
    (slot : new.slot = old.slot)
    (alive : new.running = true → new.cancelled = false)
    (gone : new.left = true → ∀ fd, s.descriptors fd ≠ some old.conn)
    (busy : new.running = true → new.left = false → s.Occupies old)
    (kept : old.cancelled = false → new.cancelled = false ∨
      ∀ fd, s.descriptors fd ≠ some old.conn) :
    ({ s with sources := s.sources.set k new } : Server).Sourced := by
  have occupies : s.Occupies old → s.Occupies new := by
    unfold Occupies
    rw [slot, conn]
    exact id
  have before (k' : Nat) (src : Source)
      (found' : ({ s with sources := s.sources.set k new } : Server).SourceAt k' src) :
      ∃ src', s.SourceAt k' src' ∧ src'.conn = src.conn := by
    rcases (sourceAt_set found new k' src).mp found' with ⟨rfl, rfl⟩ | ⟨_, found'⟩
    · exact ⟨old, found, conn.symm⟩
    · exact ⟨src, found', rfl⟩
  refine ⟨?_, ?_, ?_, ?_, ?_, ?_⟩
  · intro fd' c held
    obtain ⟨k', src, found', rfl, uncancelled, monitored, seat⟩ := h.source fd' c held
    by_cases here : k' = k
    · subst here
      obtain rfl := Option.some.inj (found.symm.trans found')
      cases kept uncancelled with
      | inl stays =>
          exact ⟨k', new, (sourceAt_set found new k' new).mpr (Or.inl ⟨rfl, rfl⟩), conn, stays,
            fd.trans monitored, by rw [slot]; exact seat⟩
      | inr absent => exact absurd held (absent fd')
    · exact ⟨k', src, (sourceAt_set found new k' src).mpr (Or.inr ⟨here, found'⟩), rfl,
        uncancelled, monitored, seat⟩
  · intro k' src found'
    obtain ⟨src', old_found, same⟩ := before k' src found'
    exact same ▸ h.conn_lt k' src' old_found
  · intro k₁ k₂ src₁ src₂ found₁ found₂ same
    obtain ⟨src₁', old₁, same₁⟩ := before k₁ src₁ found₁
    obtain ⟨src₂', old₂, same₂⟩ := before k₂ src₂ found₂
    exact h.source_inj k₁ k₂ src₁' src₂' old₁ old₂ (same₁.trans (same.trans same₂.symm))
  · intro k' src found' running
    rcases (sourceAt_set found new k' src).mp found' with ⟨_, rfl⟩ | ⟨_, found'⟩
    · exact alive running
    · exact h.alive k' src found' running
  · intro k' src fd' found' left
    rcases (sourceAt_set found new k' src).mp found' with ⟨_, rfl⟩ | ⟨_, found'⟩
    · rw [conn]
      exact gone left fd'
    · exact h.gone k' src fd' found' left
  · intro k' src found' running stayed
    rcases (sourceAt_set found new k' src).mp found' with ⟨_, rfl⟩ | ⟨_, found'⟩
    · exact occupies (busy running stayed)
    · exact h.busy k' src found' running stayed

/-- The sources see of the clients only their descriptors. -/
theorem Sourced.of_fd_eq (h : s.Sourced) {clients : Fin maxClients → Client}
    (same : ∀ i, (clients i).fd = (s.clients i).fd) :
    ({ s with clients := clients } : Server).Sourced := by
  refine ⟨?_, h.conn_lt, h.source_inj, h.alive, h.gone, ?_⟩
  · intro fd c held
    obtain ⟨k, src, found, conn, uncancelled, monitored, seat⟩ := h.source fd c held
    exact ⟨k, src, found, conn, uncancelled, monitored, (same src.slot).trans seat⟩
  · intro k src found running stayed
    have occupies := h.busy k src found running stayed
    unfold Occupies at occupies ⊢
    rwa [same]

/-! Reading a field of the client table after one record has changed. -/

theorem field_update {β : Type} (field : Client → β) (clients : Fin maxClients → Client)
    (i : Fin maxClients) (cl : Client) (j : Fin maxClients) :
    field (Function.update clients i cl j) = if j = i then field cl else field (clients j) := by
  rw [Function.update_apply]
  exact apply_ite field (j = i) cl (clients j)

/-! A connection is admitted. -/

theorem fd_enroll (s : Server) (i : Fin maxClients) (cfd pid : Int) (j : Fin maxClients) :
    ((s.enroll i cfd pid).clients j).fd = if j = i then cfd else (s.clients j).fd :=
  field_update Client.fd s.clients i _ j

theorem active_enroll (s : Server) (i : Fin maxClients) (cfd pid : Int) (j : Fin maxClients) :
    ((s.enroll i cfd pid).clients j).active = if j = i then true else (s.clients j).active :=
  field_update Client.active s.clients i _ j

theorem descriptors_enroll (s : Server) (i : Fin maxClients) (cfd pid fd : Int) :
    (s.enroll i cfd pid).descriptors fd =
      if fd = cfd then some s.arrivals else s.descriptors fd :=
  Function.update_apply ..

theorem sourceAt_enroll (s : Server) (i : Fin maxClients) (cfd pid : Int) (k : Nat)
    (src : Source) :
    (s.enroll i cfd pid).SourceAt k src ↔ s.SourceAt k src ∨
      (k = s.sources.length ∧ src = { conn := s.arrivals, fd := cfd, slot := i }) := by
  change (s.sources ++ [_])[k]? = some src ↔ s.sources[k]? = some src ∨ _
  rcases Nat.lt_trichotomy k s.sources.length with before | last | past
  · simp [List.getElem?_append_left before, Nat.ne_of_lt before]
  · subst last
    simp [eq_comm]
  · have absent : s.sources[k]? = none := List.getElem?_eq_none (Nat.le_of_lt past)
    have absent' : (s.sources ++ [({ conn := s.arrivals, fd := cfd, slot := i } : Source)])[k]?
        = none := by
      apply List.getElem?_eq_none
      rw [List.length_append, List.length_singleton]
      exact past
    simp [absent, absent', Nat.ne_of_gt past]

/-- A free slot and an unused descriptor meet no seated client. -/
theorem Seating.apart (h : s.Seating) {i : Fin maxClients} {cfd : Int}
    (free : (s.clients i).fd < 0) (unused : s.descriptors cfd = none) {j : Fin maxClients}
    (held : 0 ≤ (s.clients j).fd) : j ≠ i ∧ (s.clients j).fd ≠ cfd := by
  refine ⟨?_, ?_⟩
  · rintro rfl
    omega
  · rintro rfl
    obtain ⟨c, hc⟩ := h.opened j held
    rw [unused] at hc
    cases hc

theorem Seating.enroll (h : s.Seating) {i : Fin maxClients} {cfd : Int} (pid : Int)
    (free : (s.clients i).fd < 0) (good : 0 ≤ cfd) (unused : s.descriptors cfd = none) :
    (s.enroll i cfd pid).Seating := by
  have known (c : Nat) (held : ∃ fd, s.descriptors fd = some c) : c ≠ s.arrivals := by
    obtain ⟨fd, held⟩ := held
    exact Nat.ne_of_lt (h.conn_lt fd c held)
  have fresh : s.arrivals ∉ s.departed := fun gone =>
    Nat.lt_irrefl _ (h.departed_lt s.arrivals gone)
  refine ⟨?_, ?_, ?_, ?_, ?_, ?_, ?_, ?_⟩
  · intro j
    rw [active_enroll, fd_enroll]
    split
    · exact iff_of_true rfl good
    · exact h.active j
  · intro j held
    rw [fd_enroll] at held ⊢
    rw [descriptors_enroll]
    by_cases e : j = i
    · exact ⟨s.arrivals, by rw [if_pos e, if_pos rfl]⟩
    · rw [if_neg e] at held ⊢
      rw [if_neg (h.apart free unused held).2]
      exact h.opened j held
  · intro fd c held
    rw [descriptors_enroll] at held
    split at held
    · rename_i same
      exact same ▸ good
    · exact h.nonneg fd c held
  · intro j j' held same
    rw [fd_enroll] at held same
    rw [fd_enroll] at same
    by_cases e : j = i <;> by_cases e' : j' = i
    · exact e.trans e'.symm
    · rw [if_pos e, if_neg e'] at same
      exact absurd same.symm (h.apart free unused (same ▸ good)).2
    · rw [if_neg e, if_pos e'] at same
      rw [if_neg e] at held
      exact absurd same (h.apart free unused held).2
    · rw [if_neg e] at held same
      rw [if_neg e'] at same
      exact h.distinct j j' held same
  · intro fd fd' c held held'
    rw [descriptors_enroll] at held held'
    by_cases e : fd = cfd <;> by_cases e' : fd' = cfd
    · exact e.trans e'.symm
    · rw [if_pos e] at held
      rw [if_neg e'] at held'
      exact absurd (Option.some.inj held).symm (known c ⟨fd', held'⟩)
    · rw [if_neg e] at held
      rw [if_pos e'] at held'
      exact absurd (Option.some.inj held').symm (known c ⟨fd, held⟩)
    · rw [if_neg e] at held
      rw [if_neg e'] at held'
      exact h.conn_inj fd fd' c held held'
  · intro fd c held
    change c < s.arrivals + 1
    rw [descriptors_enroll] at held
    split at held
    · exact Nat.lt_succ_of_le (Nat.le_of_eq (Option.some.inj held).symm)
    · exact Nat.lt_succ_of_lt (h.conn_lt fd c held)
  · intro c
    change c ∈ s.arrivals :: s.admitted ∧ c ∉ s.departed ↔ _
    have old : c ≠ s.arrivals → ((∃ fd, (s.enroll i cfd pid).descriptors fd = some c) ↔
        ∃ fd, s.descriptors fd = some c) := by
      intro differs
      refine exists_congr fun fd => ?_
      rw [descriptors_enroll]
      split
      · rename_i same
        rw [same, unused]
        simp [differs.symm]
      · rfl
    by_cases new : c = s.arrivals
    · subst new
      refine iff_of_true ⟨List.mem_cons_self, fresh⟩ ⟨cfd, ?_⟩
      rw [descriptors_enroll, if_pos rfl]
    · rw [List.mem_cons, or_iff_right new, h.roster, old new]
  · intro c gone
    exact Nat.lt_succ_of_lt (h.departed_lt c gone)

theorem Occupies.enroll (h : s.Seating) {i : Fin maxClients} {cfd : Int} (pid : Int)
    (free : (s.clients i).fd < 0) (unused : s.descriptors cfd = none) {src : Source}
    (occupies : s.Occupies src) : (s.enroll i cfd pid).Occupies src := by
  obtain ⟨other, differs⟩ := h.apart free unused occupies.1
  unfold Occupies
  rw [fd_enroll, if_neg other, descriptors_enroll, if_neg differs]
  exact occupies

theorem Sourced.enroll (h : s.Sourced) (seating : s.Seating) {i : Fin maxClients} {cfd : Int}
    (pid : Int) (free : (s.clients i).fd < 0) (unused : s.descriptors cfd = none) :
    (s.enroll i cfd pid).Sourced := by
  refine ⟨?_, ?_, ?_, ?_, ?_, ?_⟩
  · intro fd c held
    rw [descriptors_enroll] at held
    split at held
    · rename_i same
      refine ⟨s.sources.length, _, (sourceAt_enroll ..).mpr (Or.inr ⟨rfl, rfl⟩),
        Option.some.inj held, rfl, same.symm, ?_⟩
      rw [fd_enroll, if_pos rfl]
      exact same.symm
    · obtain ⟨k, src, found, conn, uncancelled, monitored, seat⟩ := h.source fd c held
      have seated : 0 ≤ (s.clients src.slot).fd := seat ▸ seating.nonneg fd c held
      refine ⟨k, src, (sourceAt_enroll ..).mpr (Or.inl found), conn, uncancelled, monitored, ?_⟩
      rw [fd_enroll, if_neg (seating.apart free unused seated).1]
      exact seat
  · intro k src found
    change src.conn < s.arrivals + 1
    cases (sourceAt_enroll ..).mp found with
    | inl old => exact Nat.lt_succ_of_lt (h.conn_lt k src old)
    | inr new =>
        rw [new.2]
        exact Nat.lt_succ_self _
  · intro k k' src src' found found' same
    cases (sourceAt_enroll ..).mp found with
    | inl old =>
        have bound := h.conn_lt k src old
        cases (sourceAt_enroll ..).mp found' with
        | inl old' => exact h.source_inj k k' src src' old old' same
        | inr new' =>
            rw [same, new'.2] at bound
            exact absurd bound (Nat.lt_irrefl _)
    | inr new =>
        cases (sourceAt_enroll ..).mp found' with
        | inl old' =>
            have bound := h.conn_lt k' src' old'
            rw [← same, new.2] at bound
            exact absurd bound (Nat.lt_irrefl _)
        | inr new' => exact new.1.trans new'.1.symm
  · intro k src found running
    cases (sourceAt_enroll ..).mp found with
    | inl old => exact h.alive k src old running
    | inr new => rw [new.2]
  · intro k src fd found left
    cases (sourceAt_enroll ..).mp found with
    | inl old =>
        rw [descriptors_enroll]
        split
        · have bound := h.conn_lt k src old
          intro same
          exact absurd (Option.some.inj same) (Nat.ne_of_gt bound)
        · exact h.gone k src fd old left
    | inr new =>
        rw [new.2] at left
        cases left
  · intro k src found running stayed
    cases (sourceAt_enroll ..).mp found with
    | inl old => exact (h.busy k src old running stayed).enroll seating pid free unused
    | inr new =>
        rw [new.2] at running
        cases running

/-! A slot is vacated. -/

/-- The part of a disconnection that is not about the source. -/
def vacate (s : Server) (i : Fin maxClients) : Server :=
  { s with
    clients := Function.update s.clients i { s.clients i with fd := -1, active := false }
    descriptors := Function.update s.descriptors (s.clients i).fd none
    departed := (s.descriptors (s.clients i).fd).toList ++ s.departed }

theorem leave_eq_vacate (s : Server) (k : Nat) (src : Source) :
    s.leave k src =
      { s.vacate src.slot with
        sources := s.sources.set k { src with running := true, left := true } } := rfl

theorem fd_vacate (s : Server) (i j : Fin maxClients) :
    ((s.vacate i).clients j).fd = if j = i then -1 else (s.clients j).fd :=
  field_update Client.fd s.clients i _ j

theorem active_vacate (s : Server) (i j : Fin maxClients) :
    ((s.vacate i).clients j).active = if j = i then false else (s.clients j).active :=
  field_update Client.active s.clients i _ j

theorem descriptors_vacate (s : Server) (i : Fin maxClients) (fd : Int) :
    (s.vacate i).descriptors fd =
      if fd = (s.clients i).fd then none else s.descriptors fd :=
  Function.update_apply ..

theorem descriptors_of_vacate {i : Fin maxClients} {fd : Int} {c : Nat}
    (held : (s.vacate i).descriptors fd = some c) :
    fd ≠ (s.clients i).fd ∧ s.descriptors fd = some c := by
  rw [descriptors_vacate] at held
  split at held
  · cases held
  · rename_i other
    exact ⟨other, held⟩

theorem Seating.vacate (h : s.Seating) {i : Fin maxClients} {c : Nat}
    (seat : s.descriptors (s.clients i).fd = some c) : (s.vacate i).Seating := by
  have departed : (s.vacate i).departed = c :: s.departed := by
    change (s.descriptors (s.clients i).fd).toList ++ s.departed = _
    rw [seat]
    rfl
  refine ⟨?_, ?_, ?_, ?_, ?_, ?_, ?_, ?_⟩
  · intro j
    rw [active_vacate, fd_vacate]
    split
    · simp
    · exact h.active j
  · intro j held
    rw [fd_vacate] at held ⊢
    rw [descriptors_vacate]
    by_cases e : j = i
    · rw [if_pos e] at held
      omega
    · rw [if_neg e] at held ⊢
      rw [if_neg fun same => e (h.distinct j i held same)]
      exact h.opened j held
  · intro fd c' held
    exact h.nonneg fd c' (descriptors_of_vacate held).2
  · intro j j' held same
    rw [fd_vacate] at held same
    rw [fd_vacate] at same
    by_cases e : j = i
    · rw [if_pos e] at held
      omega
    · rw [if_neg e] at held same
      by_cases e' : j' = i
      · rw [if_pos e'] at same
        omega
      · rw [if_neg e'] at same
        exact h.distinct j j' held same
  · intro fd fd' c' held held'
    exact h.conn_inj fd fd' c' (descriptors_of_vacate held).2 (descriptors_of_vacate held').2
  · intro fd c' held
    exact h.conn_lt fd c' (descriptors_of_vacate held).2
  · intro c'
    rw [departed, List.mem_cons, not_or]
    change c' ∈ s.admitted ∧ _ ↔ _
    constructor
    · intro ⟨came, other, stayed⟩
      obtain ⟨fd, held⟩ := (h.roster c').mp ⟨came, stayed⟩
      refine ⟨fd, ?_⟩
      rw [descriptors_vacate, if_neg]
      · exact held
      · intro same
        rw [same, seat] at held
        exact other (Option.some.inj held).symm
    · intro ⟨fd, held⟩
      obtain ⟨differs, held⟩ := descriptors_of_vacate held
      obtain ⟨came, stayed⟩ := (h.roster c').mpr ⟨fd, held⟩
      refine ⟨came, ?_, stayed⟩
      rintro rfl
      exact differs (h.conn_inj fd _ c' held seat)
  · intro c' gone
    rw [departed] at gone
    cases List.mem_cons.mp gone with
    | inl same => exact same ▸ h.conn_lt _ c seat
    | inr before => exact h.departed_lt c' before

/-- Whoever sits in another slot stays seated. -/
theorem Occupies.vacate (h : s.Seating) {i : Fin maxClients} {src : Source}
    (other : src.slot ≠ i) (occupies : s.Occupies src) : (s.vacate i).Occupies src := by
  unfold Occupies
  rw [fd_vacate, if_neg other, descriptors_vacate,
    if_neg fun same => other (h.distinct src.slot i occupies.1 same)]
  exact occupies

/-- Sources of the same occupied slot that occupy it are one source. -/
theorem Sourced.eq_of_occupies (h : s.Sourced) {k k' : Nat} {src src' : Source}
    (found : s.SourceAt k src) (found' : s.SourceAt k' src') (slot : src.slot = src'.slot)
    (occupies : s.Occupies src) (occupies' : s.Occupies src') : k = k' := by
  have seat := occupies.2
  rw [slot, occupies'.2] at seat
  exact h.source_inj k k' src src' found found' (Option.some.inj seat).symm

theorem Sourced.vacate (h : s.Sourced) (seating : s.Seating) {k : Nat} {src : Source}
    (found : s.SourceAt k src) (idle : src.running = false) (occupies : s.Occupies src) :
    (s.vacate src.slot).Sourced := by
  refine ⟨?_, h.conn_lt, h.source_inj, h.alive, ?_, ?_⟩
  · intro fd c held
    obtain ⟨differs, held⟩ := descriptors_of_vacate held
    obtain ⟨k', src', found', conn, uncancelled, monitored, seat⟩ := h.source fd c held
    have other : src'.slot ≠ src.slot := fun same => differs (by rw [← seat, same])
    refine ⟨k', src', found', conn, uncancelled, monitored, ?_⟩
    rw [fd_vacate, if_neg other]
    exact seat
  · intro k' src' fd found' left held
    exact h.gone k' src' fd found' left (descriptors_of_vacate held).2
  · intro k' src' found' running stayed
    have there := h.busy k' src' found' running stayed
    refine there.vacate seating ?_
    intro same
    obtain rfl := h.eq_of_occupies found' found same there occupies
    obtain rfl := Option.some.inj (found.symm.trans found')
    rw [running] at idle
    cases idle

/-! The other outcomes. -/

theorem Seating.serve (h : s.Seating) (k : Nat) {src : Source} {cl : Client}
    (same_fd : cl.fd = (s.clients src.slot).fd)
    (same_active : cl.active = (s.clients src.slot).active) : (s.serve k src cl).Seating := by
  have fd (j : Fin maxClients) : ((s.serve k src cl).clients j).fd = (s.clients j).fd :=
    read_update_of_eq Client.fd same_fd j
  have active (j : Fin maxClients) :
      ((s.serve k src cl).clients j).active = (s.clients j).active :=
    read_update_of_eq Client.active same_active j
  refine ⟨?_, ?_, h.nonneg, ?_, h.conn_inj, h.conn_lt, h.roster, h.departed_lt⟩
  · intro j
    rw [active, fd]
    exact h.active j
  · intro j
    rw [fd]
    exact h.opened j
  · intro j j'
    rw [fd, fd]
    exact h.distinct j j'

theorem Sourced.serve (h : s.Sourced) {k : Nat} {src : Source} {cl : Client}
    (found : s.SourceAt k src) (alive : src.cancelled = false) (occupies : s.Occupies src)
    (same : cl.fd = (s.clients src.slot).fd) : (s.serve k src cl).Sourced := by
  have replaced : ({ s with sources := s.sources.set k { src with running := true } } :
      Server).Sourced := by
    refine h.replace found rfl rfl rfl (fun _ => alive) ?_ (fun _ _ => occupies) Or.inl
    intro left fd
    exact h.gone k src fd found left
  exact replaced.of_fd_eq (read_update_of_eq Client.fd same)

theorem Sourced.leave (h : s.Sourced) (seating : s.Seating) {k : Nat} {src : Source}
    (found : s.SourceAt k src) (alive : src.cancelled = false) (idle : src.running = false)
    (occupies : s.Occupies src) : (s.leave k src).Sourced := by
  have absent (fd : Int) : (s.vacate src.slot).descriptors fd ≠ some src.conn := by
    intro held
    obtain ⟨differs, held⟩ := descriptors_of_vacate held
    exact differs (seating.conn_inj fd _ src.conn held occupies.2)
  rw [leave_eq_vacate]
  refine (h.vacate seating found idle occupies).replace found rfl rfl rfl (fun _ => alive)
    (fun _ => absent) ?_ (fun _ => Or.inr absent)
  intro _ stayed
  cases stayed

theorem Sourced.test (h : s.Sourced) {k : Nat} {src : Source} (found : s.SourceAt k src)
    (running : src.running = true) : (s.test k src).Sourced := by
  refine h.replace found rfl rfl rfl nofun ?_ nofun ?_
  · intro left fd
    exact h.gone k src fd found left
  · intro uncancelled
    cases left : src.left with
    | true => exact Or.inr fun fd => h.gone k src fd found left
    | false =>
        have seated := (h.busy k src found running left).1
        refine Or.inl ?_
        simp only [uncancelled, Bool.false_or, decide_eq_false_iff_not]
        omega

/-! One step. -/

structure Exact (s : Server) : Prop where
  seating : s.Seating
  sourced : s.Sourced

theorem exact_start : start.Exact :=
  ⟨seating_start, sourced_start⟩

theorem settled_start : start.Settled := by
  intro k src found
  cases found

/-- A source that fires serves the client it was created for. -/
theorem Settled.occupies (settled : s.Settled) {k : Nat} {src : Source}
    (found : s.SourceAt k src) (alive : src.cancelled = false) (idle : src.running = false) :
    s.Occupies src := by
  cases settled k src found alive with
  | inl gone =>
      rw [idle] at gone
      cases gone.1
  | inr occupies => exact occupies

theorem Exact.refused (h : s.Exact) :
    ({ s with arrivals := s.arrivals + 1 } : Server).Exact where
  seating :=
    { h.seating with
      conn_lt := fun fd c held => Nat.lt_succ_of_lt (h.seating.conn_lt fd c held)
      departed_lt := fun c gone => Nat.lt_succ_of_lt (h.seating.departed_lt c gone) }
  sourced :=
    { h.sourced with
      conn_lt := fun k src found => Nat.lt_succ_of_lt (h.sourced.conn_lt k src found) }

theorem Exact.change (h : s.Exact) (settled : s.Settled) {e : Event}
    (change : Change s e s') : s'.Exact := by
  cases change with
  | failed bad => exact h
  | refused full => exact h.refused
  | @admitted cfd pid i free good unused =>
      have open_slot := (seat_eq_none_iff (s.clients i)).mp free.1
      exact ⟨h.seating.enroll pid open_slot good unused,
        h.sourced.enroll h.seating pid open_slot unused⟩
  | @served k _ _ _ src cl found alive idle same_fd same_active =>
      exact ⟨h.seating.serve k same_fd same_active,
        h.sourced.serve found alive (settled.occupies found alive idle) same_fd⟩
  | @left k _ _ _ src found alive idle =>
      have occupies := settled.occupies found alive idle
      have vacated := h.seating.vacate occupies.2
      exact ⟨{ vacated with }, h.sourced.leave h.seating found alive idle occupies⟩
  | tested src found running =>
      exact ⟨{ h.seating with }, h.sourced.test found running⟩

end Server
end LunaOS.Seatd
