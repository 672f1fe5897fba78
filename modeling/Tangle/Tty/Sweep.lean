/-
The expiry sweep. `TTY.each` iterates over both levels of the registry while the loop body, through
`close` and the `on_close` listener, deletes from them: Ruby skips what has been deleted meanwhile.
After a sweep exactly the terminals that were registered and expired have been closed, each once.
-/
import Tangle.Tty.Create

namespace Tangle

open TTY (Ref Registry)
open SSH (Tty)

namespace TTY

/-- `TTY.each`, visiting the entries that are still there when their turn comes. -/
def each (f : Reactor → Ref → Reactor) (s : Reactor) : Reactor :=
  s.terms.terms.keys.foldl (fun s owner =>
    -- the owner may be gone with its last terminal
    match s.terms.terms.lookup owner with
    | none => s
    | some ttys => (OrdHash.values ttys).foldl (fun s tty => if tty ∈ s.terms then f s tty else s) s) s

/-- The body of the timer's loop. -/
def closeExpired (s : Reactor) (tty : Ref) : Reactor :=
  match s.ttys.lookup tty.objectId with
  | some t => if t.expired s.now then s.close tty.objectId else s
  | none => s

/-- The timer's block. -/
def sweep (s : Reactor) : Reactor := each closeExpired s

end TTY

namespace Reactor

/-- The reference under which the terminal `t` with object id `k` is registered. -/
abbrev ref (k : Int) (t : Tty) : Ref := ⟨t.owner, k⟩

/-- What every reachable process satisfies: registered terminals exist under their owner, every
terminal has the one listener of `TTY.create`, object ids are not zero, and a terminal whose session
is over is no longer registered. -/
structure WF (s : Reactor) : Prop where
  known : ∀ tty ∈ s.terms, ∃ t, s.ttys.lookup tty.objectId = some t ∧ t.owner = tty.owner
  listeners : ∀ k t, s.ttys.lookup k = some t → t.listeners = [.deleteTty]
  nonzero : ∀ k t, s.ttys.lookup k = some t → k ≠ 0
  ended : ∀ k t, s.ttys.lookup k = some t → t.phase = .ended → ref k t ∉ s.terms

/-- Every registered terminal exists under its owner, with the listener of `TTY.create`. -/
def Listening (s : Reactor) : Prop :=
  ∀ tty ∈ s.terms, ∃ t, s.ttys.lookup tty.objectId = some t ∧ t.owner = tty.owner ∧ t.listeners = [.deleteTty]

theorem WF.listening {s : Reactor} (h : s.WF) : s.Listening := by
  intro tty hm
  obtain ⟨t, ht, ho⟩ := h.known tty hm
  exact ⟨t, ht, ho, h.listeners _ t ht⟩

/-- Registered and expired: what a sweep closes. -/
def Due (s : Reactor) (tty : Ref) : Prop :=
  tty ∈ s.terms ∧ ∃ t, s.ttys.lookup tty.objectId = some t ∧ t.expired s.now = true

end Reactor

/-! ## One sweep -/

open Reactor (ref Due)

/-- `close` has run once more on the terminal. -/
def SSH.Tty.closedOnce (t : Tty) : Tty := { t with closes := t.closes + 1 }

/-- What closing the terminals of a set does to the process. -/
structure Closed (s : Reactor) (C : Ref → Prop) (s' : Reactor) : Prop where
  now : s'.now = s.now
  hit : ∀ k t, s.ttys.lookup k = some t → C (ref k t) → s'.ttys.lookup k = some t.closedOnce
  miss : ∀ k t, s.ttys.lookup k = some t → ¬ C (ref k t) → s'.ttys.lookup k = some t
  fresh : ∀ k, s.ttys.lookup k = none → s'.ttys.lookup k = none
  mem : ∀ tty, tty ∈ s'.terms ↔ tty ∈ s.terms ∧ ¬ C tty
  published : ∃ new, s'.published = s.published ++ new ∧
    (∀ tty, C tty → new.count (.kill tty.owner tty.objectId) = 1) ∧
    (∀ tty, ¬ C tty → .kill tty.owner tty.objectId ∉ new) ∧ ∀ p ∈ new, ∃ tty, C tty ∧ p = .kill tty.owner tty.objectId

theorem Closed.congr {s s' : Reactor} {C C' : Ref → Prop} (h : Closed s C s') (hC : ∀ tty, C tty ↔ C' tty) :
    Closed s C' s' := by
  have : C = C' := funext fun tty => propext (hC tty)
  exact this ▸ h

theorem closed_none (s : Reactor) : Closed s (fun _ => False) s :=
  ⟨rfl, fun _ _ _ h => h.elim, fun _ _ h _ => h, fun _ h => h, fun _ => by simp, [], by simp, by simp, by simp, by simp⟩

/-- Closing one more terminal that is still registered. -/
theorem Closed.close {s s' : Reactor} {C : Ref → Prop} (hl : s.Listening) (h : Closed s C s') {tty : Ref}
    (hm : tty ∈ s.terms) (hC : ¬ C tty) : Closed s (fun x => C x ∨ x = tty) (s'.close tty.objectId) := by
  obtain ⟨t, ht, ho, hls⟩ := hl tty hm
  have href : tty = ref tty.objectId t := by unfold Reactor.ref; rw [ho]
  have ht' : s'.ttys.lookup tty.objectId = some t := h.miss _ t ht (by rw [← href]; exact hC)
  have hlk : ∀ k, (OrdHash.update tty.objectId (fun t => { t with closes := t.closes + 1 }) s'.ttys).lookup k =
      if k = tty.objectId then some t.closedOnce else s'.ttys.lookup k := by
    intro k; rw [OrdHash.lookup_update, ht']; rfl
  have hkill : ∀ x : Ref, Publication.kill x.owner x.objectId = .kill t.owner tty.objectId ↔ x = tty := by
    intro x
    rw [ho]
    constructor
    · intro hx; cases x; cases hx; rfl
    · rintro rfl; rfl
  rw [close_eq ht' hls]
  obtain ⟨new, hpub, hone, hno, hall⟩ := h.published
  refine ⟨h.now, fun k t1 hk hx => ?_, fun k t1 hk hx => ?_, fun k hk => ?_, fun x => ?_,
    new ++ [.kill t.owner tty.objectId],
    by rw [hpub, List.append_assoc], fun x hx => ?_, fun x hx => ?_, fun p hp => ?_⟩
  · simp only [hlk]
    split
    · rename_i hkt; subst hkt; rw [ht] at hk; cases hk; rfl
    · rename_i hkt
      refine h.hit k t1 hk (hx.resolve_right fun he => hkt ?_)
      rw [← he]
  · simp only [hlk]
    split
    · rename_i hkt; subst hkt; rw [ht] at hk; cases hk; exact absurd (.inr href.symm) hx
    · exact h.miss k t1 hk fun hc => hx (.inl hc)
  · simp only [hlk]
    split
    · rename_i hkt; subst hkt; rw [ht] at hk; cases hk
    · exact h.fresh k hk
  · rw [Registry.mem_delete, h.mem, ← show tty = (⟨t.owner, tty.objectId⟩ : Ref) from href]
    tauto
  · rw [List.count_append]
    by_cases hxt : x = tty
    · have : List.count (Publication.kill x.owner x.objectId) new = 0 := by
        rw [List.count_eq_zero]; exact hno x (hxt ▸ hC)
      rw [this, (hkill x).2 hxt, List.count_singleton_self]
    · rw [hone x (hx.resolve_right hxt), List.count_singleton, if_neg]
      exact fun he => hxt ((hkill x).1 (eq_of_beq he).symm)
  · rw [List.mem_append, List.mem_singleton, hkill]
    rintro (hn | he)
    · exact hno x (fun hc => hx (.inl hc)) hn
    · exact hx (.inr he)
  · rw [List.mem_append, List.mem_singleton] at hp
    rcases hp with hp | rfl
    · obtain ⟨x, hx, he⟩ := hall p hp; exact ⟨x, .inl hx, he⟩
    · exact ⟨tty, .inr rfl, by rw [ho]⟩

/-- What a visit of the loop does to a terminal, once the terminals of `C` have been closed. -/
theorem Closed.visit {s s' : Reactor} {C : Ref → Prop} (hl : s.Listening) (h : Closed s C s') (tty : Ref) :
    Closed s (fun x => C x ∨ (x = tty ∧ Due s x))
      (if tty ∈ s'.terms then TTY.closeExpired s' tty else s') := by
  split
  · rename_i hm'
    obtain ⟨hm, hC⟩ := (h.mem tty).1 hm'
    obtain ⟨t, ht, ho, hls⟩ := hl tty hm
    have href : tty = ref tty.objectId t := by unfold Reactor.ref; rw [ho]
    have ht' : s'.ttys.lookup tty.objectId = some t := h.miss _ t ht (by rw [← href]; exact hC)
    unfold TTY.closeExpired
    rw [ht', h.now]
    simp only
    split
    · rename_i hexp
      refine (h.close hl hm hC).congr fun x => or_congr_right ?_
      exact ⟨by rintro rfl; exact ⟨rfl, hm, t, ht, hexp⟩, fun hx => hx.1⟩
    · rename_i hexp
      refine h.congr fun x => ⟨.inl, fun hx => hx.resolve_right ?_⟩
      rintro ⟨rfl, -, t1, ht1, hexp1⟩
      rw [ht] at ht1; cases ht1; exact hexp hexp1
  · rename_i hm'
    refine h.congr fun x => ⟨.inl, ?_⟩
    rintro (hx | ⟨rfl, hm, -⟩)
    · exact hx
    · exact by_contra fun hC => hm' ((h.mem x).2 ⟨hm, hC⟩)

/-- The inner loop, over any references. -/
theorem Closed.visits {s : Reactor} (hl : s.Listening) :
    ∀ (l : List Ref) {s' : Reactor} {C : Ref → Prop}, Closed s C s' →
    Closed s (fun x => C x ∨ (x ∈ l ∧ Due s x))
      (l.foldl (fun s' tty => if tty ∈ s'.terms then TTY.closeExpired s' tty else s') s')
  | [], s', C, h => h.congr fun x => by simp
  | tty :: l, s', C, h => by
    rw [List.foldl_cons]
    refine (Closed.visits hl l (h.visit hl tty)).congr fun x => ?_
    rw [List.mem_cons]; tauto

/-- The outer loop, over any owners: their registered and expired terminals are closed. -/
theorem Closed.owners {s : Reactor} (hl : s.Listening) : ∀ (os : List String) {s' : Reactor} {C : Ref → Prop},
    (∀ x, C x → Due s x) → Closed s C s' →
    Closed s (fun x => C x ∨ (x.owner ∈ os ∧ Due s x)) (os.foldl (fun s' owner =>
      match s'.terms.terms.lookup owner with
      | none => s'
      | some ttys => (OrdHash.values ttys).foldl
          (fun s' tty => if tty ∈ s'.terms then TTY.closeExpired s' tty else s') s') s')
  | [], s', C, _, h => h.congr fun x => by simp
  | o :: os, s', C, hC, h => by
    rw [List.foldl_cons]
    -- every terminal of `o` that is due was closed before or is in the bucket now
    have hstep : Closed s (fun x => C x ∨ (x.owner = o ∧ Due s x))
        (match s'.terms.terms.lookup o with
        | none => s'
        | some ttys => (OrdHash.values ttys).foldl
            (fun s' tty => if tty ∈ s'.terms then TTY.closeExpired s' tty else s') s') := by
      cases hb : s'.terms.terms.lookup o with
      -- the bucket is gone: all of it was closed
      | none =>
        refine h.congr fun x => ⟨.inl, ?_⟩
        rintro (hx | ⟨rfl, hd⟩)
        · exact hx
        · by_contra hCx
          have hm := (h.mem x).2 ⟨hd.1, hCx⟩
          rw [Registry.mem_iff] at hm
          unfold TTY.Terms.get? at hm
          rw [hb] at hm; cases hm
      | some ttys =>
        refine (Closed.visits hl (OrdHash.values ttys) h).congr fun x => ⟨?_, ?_⟩
        · rintro (hx | ⟨hx, hd⟩)
          · exact .inl hx
          · obtain ⟨⟨k, tty⟩, he, hxe⟩ := List.mem_map.1 hx
            simp only at hxe; subst hxe
            have := s'.terms.wf.stored o ttys k tty hb (OrdHash.mem_entries.1 he)
            exact .inr ⟨by rw [this], hd⟩
        · rintro (hx | ⟨rfl, hd⟩)
          · exact .inl hx
          · by_cases hCx : C x
            · exact .inl hCx
            · have hm := (h.mem x).2 ⟨hd.1, hCx⟩
              rw [Registry.mem_iff] at hm
              unfold TTY.Terms.get? at hm
              rw [hb] at hm
              exact .inr ⟨List.mem_map.2 ⟨⟨x.objectId, x⟩, OrdHash.mem_entries.2 hm, rfl⟩, hd⟩
    refine (Closed.owners hl os ?_ hstep).congr fun x => ?_
    · rintro x (hx | hx)
      · exact hC x hx
      · exact hx.2
    · rw [List.mem_cons]; tauto

/-- A sweep closes exactly the terminals that were registered and expired. -/
theorem sweep_closed {s : Reactor} (hl : s.Listening) : Closed s (Due s) (TTY.sweep s) := by
  refine (Closed.owners hl s.terms.terms.keys (fun _ h => h.elim) (closed_none s)).congr fun x => ?_
  refine ⟨fun h => (h.resolve_left id).2, fun h => .inr ⟨?_, h⟩⟩
  have hm := h.1
  rw [Registry.mem_iff] at hm
  unfold TTY.Terms.get? at hm
  obtain ⟨b, hb, -⟩ := Option.bind_eq_some_iff.1 hm
  rw [← AList.mem_keys, ← AList.lookup_isSome, hb]; rfl

/-! ## The sweep as a filter -/

/-- The registry of `s'` is that of `s` less some terminals. -/
def Deletes (s s' : Reactor) : Prop :=
  ∃ ds : List Ref, s'.terms.terms = s.terms.terms.restrict fun tty => decide (tty ∉ ds)

theorem Deletes.refl {s s' : Reactor} (h : s'.terms = s.terms) : Deletes s s' :=
  ⟨[], by rw [h]; simpa using (TTY.Terms.restrict_true s.terms.wf).symm⟩

theorem Deletes.trans {s s1 s2 : Reactor} (h : Deletes s s1) (h' : Deletes s1 s2) : Deletes s s2 := by
  obtain ⟨ds, hd⟩ := h
  obtain ⟨ds', hd'⟩ := h'
  refine ⟨ds ++ ds', ?_⟩
  rw [hd', hd, TTY.Terms.restrict_restrict]
  exact TTY.Terms.restrict_congr s.terms.wf fun tty _ => by simp [not_or]

theorem Deletes.one {s s' : Reactor} {tty : Ref} (h : s'.terms = s.terms.delete tty) : Deletes s s' := by
  refine ⟨[tty], ?_⟩
  rw [h]
  refine (TTY.Terms.delete_eq_restrict s.terms.wf tty).trans (TTY.Terms.restrict_congr s.terms.wf fun r _ => by simp)

/-- All that `close` does to the registry is done by the listeners. -/
theorem close_deletes (s : Reactor) (id : Int) : Deletes s (s.close id) := by
  unfold Reactor.close
  cases s.ttys.lookup id with
  | none => exact .refl rfl
  | some t =>
    have hls : ∀ (ls : List SSH.Listener) (s : Reactor),
        Deletes s (ls.foldl (Reactor.runListener ⟨t.owner, id⟩) s) := by
      intro ls
      induction ls with
      | nil => exact fun s => .refl rfl
      | cons l ls ih =>
        intro s
        cases l
        exact Deletes.trans (.one rfl) (ih _)
    exact (hls _ s).trans (.refl (publish_terms _ _))

/-- What every visit of a terminal keeps, the whole loop keeps. -/
theorem TTY.each_inv {P : Reactor → Prop} {f : Reactor → Ref → Reactor} (hf : ∀ s tty, P s → P (f s tty))
    {s : Reactor} (hs : P s) : P (TTY.each f s) := by
  refine List.foldlRecOn _ _ hs fun s hs owner _ => ?_
  split
  · exact hs
  · refine List.foldlRecOn _ _ hs fun s hs tty _ => ?_
    split
    · exact hf s tty hs
    · exact hs

theorem sweep_deletes (s : Reactor) : Deletes s (TTY.sweep s) := by
  refine TTY.each_inv (fun s' tty h => ?_) (.refl rfl)
  unfold TTY.closeExpired
  split
  · split
    · exact h.trans (close_deletes s' tty.objectId)
    · exact h
  · exact h

/-- One sweep, on any registry and whichever of its terminals have expired, filters the registry: what
is left is the old registry, in its order, restricted to the terminals that have not expired. Each
expired terminal is closed once and its kill event published once, and nothing else is closed. -/
theorem sweep_filter {s : Reactor} {expired : Ref → Bool} (hl : s.Listening)
    (he : ∀ tty ∈ s.terms, ∀ t, s.ttys.lookup tty.objectId = some t → t.expired s.now = expired tty) :
    ((TTY.sweep s).terms.terms.WF ∧
      (TTY.sweep s).terms.terms = s.terms.terms.restrict fun tty => !expired tty) ∧
    (∀ k t, s.ttys.lookup k = some t → (TTY.sweep s).ttys.lookup k =
      some (if ref k t ∈ s.terms ∧ expired (ref k t) = true then { t with closes := t.closes + 1 } else t)) ∧
    ∃ new, (TTY.sweep s).published = s.published ++ new ∧
      (∀ tty ∈ s.terms, new.count (.kill tty.owner tty.objectId) = if expired tty then 1 else 0) ∧
      ∀ p ∈ new, ∃ tty ∈ s.terms, expired tty = true ∧ p = .kill tty.owner tty.objectId := by
  have hdue : ∀ tty, Due s tty ↔ tty ∈ s.terms ∧ expired tty = true := by
    intro tty
    constructor
    · rintro ⟨hm, t, ht, hx⟩
      exact ⟨hm, (he tty hm t ht).symm.trans hx⟩
    · rintro ⟨hm, hx⟩
      obtain ⟨t, ht, -⟩ := hl tty hm
      exact ⟨hm, t, ht, (he tty hm t ht).trans hx⟩
  have hc := sweep_closed hl
  refine ⟨⟨(TTY.sweep s).terms.wf, ?_⟩, fun k t hk => ?_, ?_⟩
  · obtain ⟨ds, hds⟩ := sweep_deletes s
    refine hds.trans (TTY.Terms.restrict_congr s.terms.wf fun tty hm => ?_)
    have h1 := hc.mem tty
    rw [hdue] at h1
    rw [Registry.mem_iff, hds, TTY.Terms.get?_restrict] at h1
    have h2 : tty ∉ ds ↔ ¬ expired tty = true := by simpa [Registry.mem_iff, hm] using h1
    cases hx : expired tty <;> simp [hx] at h2 ⊢ <;> exact h2
  · split
    · rename_i h; exact hc.hit k t hk ((hdue _).2 h)
    · rename_i h; exact hc.miss k t hk fun hd => h ((hdue _).1 hd)
  · obtain ⟨new, hp, hone, hno, hall⟩ := hc.published
    refine ⟨new, hp, fun tty hm => ?_, fun p hmem => ?_⟩
    · split
      · rename_i hx; exact hone tty ((hdue tty).2 ⟨hm, hx⟩)
      · rename_i hx
        rw [List.count_eq_zero]
        exact hno tty fun hd => hx ((hdue tty).1 hd).2
    · obtain ⟨tty, hd, rfl⟩ := hall p hmem
      exact ⟨tty, ((hdue tty).1 hd).1, ((hdue tty).1 hd).2, rfl⟩

/-- Two of three terminals have been idle for too long; the owner of both goes with them. -/
theorem sweep_filter_mixed : ∃ s : Reactor, s.terms.terms.keys = ["1", "2"] ∧
    (TTY.sweep s).terms.terms = s.terms.terms.restrict (fun tty => !decide (tty.owner = "1")) :=
  let tty (owner : String) (last : Nat) : Tty := { Tty.new owner last with listeners := [.deleteTty] }
  ⟨{ Reactor.init false with
      now := 2000
      terms := ((Registry.empty.push ⟨"1", 8⟩).push ⟨"2", 9⟩).push ⟨"1", 10⟩
      ttys := OrdHash.set 10 (tty "1" 0) (OrdHash.set 9 (tty "2" 1900) (OrdHash.set 8 (tty "1" 0) ∅)) }, rfl, by
    refine (sweep_filter (fun tty hm => ?_) fun tty hm t ht => ?_).1.2
    · simp only [Registry.mem_push, Registry.not_mem_empty, or_false] at hm
      rcases hm with rfl | rfl | rfl <;> exact ⟨_, rfl, rfl, rfl⟩
    · simp only [Registry.mem_push, Registry.not_mem_empty, or_false] at hm
      rcases hm with rfl | rfl | rfl <;> cases ht <;> decide⟩

end Tangle
