/-
Output comes in chunks, and where it is cut does not matter to what the terminal becomes, but for what is
drawn in between: writing the chunks and writing all of them at once give the same terminal. There is one
exception. Where a chunk ends in front of a character that the parser passes over, the first character of
the next chunk is not passed over.
-/
import Tangle.Term.Like
import Tangle.Term.Run

namespace Tangle.Term.Terminal

open Observe

/-! ## The view during a write

A write begins at the bottom of the history and stays there, also where it changes the screen. -/

/-- The screen that is kept is not scrolled back. -/
def Settled (t : Terminal) : Prop := ∀ s ∈ t.normal, s.ydisp = s.ybase

/-- Nor is the one that is shown. -/
structure Down (t : Terminal) : Prop where
  ydisp_eq : t.ydisp = t.ybase
  settled : t.Settled

theorem Down.of_view {t u : Terminal} (hd : t.Down) (h : u.view = t.view) : u.Down := by
  have hydisp : u.ydisp = t.ydisp := congrArg View.ydisp h
  have hybase : u.ybase = t.ybase := congrArg View.ybase h
  have hnormal : u.normal = t.normal := congrArg View.normal h
  refine ⟨?_, ?_⟩
  · rw [hydisp, hybase]
    exact hd.ydisp_eq
  · rw [Settled, hnormal]
    exact hd.settled

theorem Down.redrawn {t u : Terminal} (hd : t.Down) (h : Redrawn t u) : u.Down :=
  Down.of_view (t := t.withChildren u.page.children) ⟨hd.ydisp_eq, hd.settled⟩ h.view

theorem settled_resize {t u : Terminal} {x y : Nat} (h : t.resize x y = some u) : u.Settled := by
  have hnormal : u.normal = none := congrArg View.normal (redrawn_resize h).view
  rw [Settled, hnormal]
  rintro s ⟨⟩

theorem Down.effect {m : Manner} {t u : Terminal} (hd : t.Down) (h : Effect m t u) : u.Down := by
  cases h with
  | move y _ h | attr a _ h | region _ _ _ h | range y _ h | edit y f _ _ h | silent y f _ _ h | shift a b lines _ h =>
    refine Down.of_view ?_ h
    exact ⟨hd.ydisp_eq, hd.settled⟩
  | scroll h =>
    refine Down.of_view ?_ h
    exact ⟨rfl, hd.settled⟩
  | reset v _ hv h =>
    have hnew : (construct t.cols t.rows t).Down := ⟨rfl, by rintro s ⟨⟩⟩
    exact (hnew.redrawn (redrawn_reset hv)).of_view h
  | enter v _ _ hv h =>
    have hnew : ((construct t.cols t.rows t).keep (some t.saved)).Down :=
      ⟨rfl, by rintro s ⟨⟩; exact hd.ydisp_eq⟩
    exact (hnew.redrawn (redrawn_alternate hv)).of_view h
  | leave v _ _ hv h =>
    cases hn : t.normal with
    | none =>
      rw [leaveAlternate, hn] at hv
      cases hv
      exact hd.of_view h
    | some normal =>
      have hrestore : (t.restore normal).Down := ⟨hd.settled normal hn, by rintro s ⟨⟩⟩
      exact (hrestore.redrawn (redrawn_leaveAlternate hn hv)).of_view h
  | resize x v _ _ hv h =>
    have hdraw := redrawn_resize hv
    have hfit : ((t.fit (if x < 1 then 1 else x) (if t.rows < 1 then 1 else t.rows)).keep none).Down :=
      ⟨hd.ydisp_eq, by rintro s ⟨⟩⟩
    exact (hfit.redrawn hdraw).of_view h

theorem down_begin {t : Terminal} (h : t.Settled) : t.begin.Down := by
  unfold begin
  dsimp only
  split
  · exact ⟨rfl, h⟩
  · rename_i hy
    exact ⟨(not_not.1 hy).symm, h⟩

theorem down_parse {t : Terminal} {p : Terminal × Bool} {data : List CodeUnit} (h : t.Settled)
    (hexec : Machine.exec parse (t.begin, false) data = some p) : p.1.Down := by
  refine Machine.exec_inv (I := fun p => p.1.Down) (fun p ch q hp hq => ?_) (down_begin h) hexec
  exact Effects.inv (I := Down) (fun _ _ => Down.effect) hp (parse_reaches hq)

theorem Settled.idle {t u : Terminal} (hs : t.Settled) (h : Idle t u) : u.Settled := by
  obtain ⟨ydisp, cursorState, page, out, rfl⟩ := h
  exact hs

/-- Between the writes the screen that is kept stays as it was. -/
theorem settled_step {t u : Terminal} {a : Act} (hs : t.Settled) (h : t.step a = some u) : u.Settled := by
  by_cases hr : ∃ x y, a = .resize x y
  · obtain ⟨x, y, rfl⟩ := hr
    exact settled_resize h
  by_cases hw : ∃ data, a = .write data
  · obtain ⟨data, rfl⟩ := hw
    obtain ⟨p, hexec, hfinish⟩ := Option.bind_eq_some_iff.1 (show t.write data = some u from h)
    exact (down_parse hs hexec).settled.idle (idle_finish hfinish)
  · push Not at hr hw
    exact hs.idle (step_idle hw hr h)

theorem settled_run {cols rows : Nat} {acts : List Act} {t u : Terminal} (ht : (new cols rows).opened = some t)
    (h : Machine.exec step t acts = some u) : u.Settled := by
  have hnew : (new cols rows).Settled := by rintro s ⟨⟩
  have hopened : t.Settled := Settled.idle (t := (new cols rows).withChildren (List.replicate (new cols rows).rows []))
    hnew (idle_refresh ht)
  exact Machine.exec_inv (fun _ _ _ => settled_step) hopened h

/-! ## Cutting the output -/

theorem like_refresh {t u : Terminal} {a b : Nat} (h : t.refresh a b = some u) : Like t u := by
  obtain ⟨children, rfl, hlen, -⟩ := refresh_eq_some h
  exact ⟨_, rfl, hlen, rfl⟩

theorem like_finish {t u : Terminal} (h : t.finish = some u) : Like t u := by
  have hrange : Like t (t.updateRange t.y) := ⟨_, rfl, rfl, rfl⟩
  exact hrange.trans (like_refresh h)

theorem like_begin {t : Terminal} (h : t.ydisp = t.ybase) : Like t t.begin := by
  unfold begin
  dsimp only
  rw [if_neg (by rw [h]; exact fun h => h rfl)]
  exact ⟨_, rfl, rfl, rfl⟩

/-- A write takes up where the one before left off. -/
theorem write_resumes {t u v : Terminal} {skip : Bool} {data : List CodeUnit} (hs : t.Settled)
    (hexec : Machine.exec parse (t.begin, false) data = some (v, skip)) (hu : v.finish = some u) : Like v u.begin := by
  have hlike := like_finish hu
  have hdown := down_parse hs hexec
  have hydisp : u.ydisp = u.ybase := by
    obtain ⟨page, rfl, -⟩ := hlike
    exact hdown.ydisp_eq
  exact hlike.trans (like_begin hydisp)

/-- The output ends in front of a character that the parser would pass over. -/
def PassesOver (t : Terminal) (data : List CodeUnit) : Prop :=
  (Machine.exec parse (t.begin, false) data).map Prod.snd = some true

instance (t : Terminal) (data : List CodeUnit) : Decidable (t.PassesOver data) :=
  inferInstanceAs (Decidable (_ = some true))

/-- The writes of some chunks are a run of the parser over all of them. -/
theorem chunks_parse : ∀ {chunks : List (List CodeUnit)} {t v w : Terminal}, t.Settled → Like v t.begin →
    Machine.Guarded (fun t data => t.write data) (fun t data => ¬ t.PassesOver data) t chunks →
    Machine.exec (fun t data => t.write data) t chunks = some w → chunks ≠ [] →
    ∃ q, Machine.exec parse (v, false) chunks.flatten = some (q, false) ∧ Like q w
  | [], _, _, _, _, _, _, _, hne => absurd rfl hne
  | data :: chunks, t, v, w, hs, hv, hm, h, _ => by
    obtain ⟨u, hu, h⟩ := Machine.exec_cons.1 h
    obtain ⟨hpass, hm⟩ := hm
    obtain ⟨⟨x, skip⟩, hexec, hfinish⟩ := Option.bind_eq_some_iff.1 hu
    have hskip : skip = false := by
      cases skip with
      | false => rfl
      | true => exact absurd (by rw [PassesOver, hexec]; rfl) hpass
    subst hskip
    -- the same chunk from the terminal that has not been drawn
    have hparse : Option.Rel LikeParse (Machine.exec parse (t.begin, false) data) (Machine.exec parse (v, false) data) :=
      respects_parsing data _ _ ⟨hv.symm, rfl⟩
    rw [hexec] at hparse
    obtain ⟨⟨q, skip⟩, hq, hlike, hskip⟩ := rel_some_left hparse
    cases hskip
    have hqx : Like q x := Like.symm hlike
    by_cases hnil : chunks = []
    · subst hnil
      cases h
      refine ⟨q, ?_, hqx.trans (like_finish hfinish)⟩
      rw [List.flatten_cons, List.flatten_nil, List.append_nil]
      exact hq
    · have hsu : u.Settled := (down_parse hs hexec).settled.idle (idle_finish hfinish)
      obtain ⟨r, hr, hrw⟩ := chunks_parse hsu (hqx.trans (write_resumes hs hexec hfinish)) (hm u hu) h hnil
      exact ⟨r, Machine.exec_append.2 ⟨(q, false), hq, hr⟩, hrw⟩

/-- Output that is written in chunks, none of which ends where the parser is to pass over a character, makes of a
terminal what the whole output does, but for what the page shows. -/
theorem write_chunks {cols rows : Nat} {acts : List Act} {t₀ t w w' : Terminal} {chunks : List (List CodeUnit)}
    (hnew : (new cols rows).opened = some t₀) (ht : Machine.exec step t₀ acts = some t) (hne : chunks ≠ [])
    (hm : Machine.Guarded (fun t data => t.write data) (fun t data => ¬ t.PassesOver data) t chunks)
    (h : Machine.exec (fun t data => t.write data) t chunks = some w) (h' : t.write chunks.flatten = some w') :
    Like w w' := by
  obtain ⟨q, hq, hqw⟩ := chunks_parse (settled_run hnew ht) (.refl _) hm h hne
  obtain ⟨p, hexec, hfinish⟩ := Option.bind_eq_some_iff.1 h'
  rw [hq] at hexec
  cases hexec
  exact hqw.symm.trans (like_finish hfinish)

theorem write_chunks_small : Like
    ((Machine.exec (fun t data => t.write data) small [units "a\x1b", units "[7", units "mb\n"]).get (by decide +kernel))
    ((small.write [units "a\x1b", units "[7", units "mb\n"].flatten).get (by decide +kernel)) :=
  write_chunks opened_small (Machine.exec_nil small) (List.cons_ne_nil _ _) (by decide +kernel)
    (Option.some_get _).symm (Option.some_get _).symm

/-- Where a chunk ends so, the next one is taken as if another character had been passed over in between. -/
theorem write_passed {cols rows : Nat} {acts : List Act} {t₀ t u w w' : Terminal} {a b : List CodeUnit} (c : CodeUnit)
    (hnew : (new cols rows).opened = some t₀) (ht : Machine.exec step t₀ acts = some t) (hpass : t.PassesOver a)
    (hu : t.write a = some u) (hw : u.write b = some w) (hw' : t.write (a ++ c :: b) = some w') : Like w w' := by
  have hs := settled_run hnew ht
  obtain ⟨⟨v, skip⟩, ha, hskip⟩ := Option.map_eq_some_iff.1 hpass
  cases hskip
  have hfinish : v.finish = some u := by
    rw [write, ha, Option.bind_some] at hu
    exact hu
  obtain ⟨⟨p, skip⟩, hexec, hdraw⟩ := Option.bind_eq_some_iff.1 hw
  obtain ⟨⟨p', skip'⟩, hexec', hdraw'⟩ := Option.bind_eq_some_iff.1 hw'
  obtain ⟨x, hx, hexec'⟩ := Machine.exec_append.1 hexec'
  rw [ha] at hx
  cases hx
  -- the character is passed over
  have hb : Machine.exec parse (v, false) b = some (p', skip') := hexec'
  have hparse : Option.Rel LikeParse (Machine.exec parse (v, false) b) (Machine.exec parse (u.begin, false) b) :=
    respects_parsing b _ _ ⟨write_resumes hs ha hfinish, rfl⟩
  rw [hb, hexec] at hparse
  cases hparse with
  | some hlike => exact ((like_finish hdraw).symm.trans hlike.1.symm).trans (like_finish hdraw')

theorem write_passed_small : Like
    ((((small.write (units "a\x1b%")).get (by decide +kernel)).write (units "Gb")).get (by decide +kernel))
    ((small.write (units "a\x1b%" ++ 0x40 :: units "Gb")).get (by decide +kernel)) :=
  write_passed 0x40 opened_small (Machine.exec_nil small) (by decide +kernel) (Option.some_get _).symm
    (Option.some_get _).symm (Option.some_get _).symm

end Tangle.Term.Terminal
