/-
Histories of the registry. After any additions and deletions `TTY.terms` stands for a flat set of
terminals, those added and not deleted since, and a lookup answers as that set does. `TTY.count` counts
the owners in it, which are as many as the terminals exactly while nobody has two.
-/
import Tangle.Lib.Edits
import Tangle.Lib.Machine
import Tangle.Tty.Sweep

namespace Tangle.TTY

namespace Registry

/-- `TTY << tty` and `TTY.delete tty`. -/
def edit (reg : Registry) : Edit Ref → Registry
  | .add tty => reg.push tty
  | .delete tty => reg.delete tty

def run (es : List (Edit Ref)) : Registry := es.foldl edit empty

/-- The terminals `TTY.each` yields. -/
def yields (reg : Registry) : List Ref := (OrdHash.values reg.terms).flatMap OrdHash.values

/-! ## The flat set -/

/-- An edit of the registry is that edit of the set of its terminals. -/
theorem mem_edit {reg : Registry} {e : Edit Ref} {tty : Ref} :
    tty ∈ reg.edit e ↔ tty ∈ e.apply {tty | tty ∈ reg} := by
  cases e with
  | add tty' => exact mem_push
  | delete tty' => exact mem_delete.trans and_comm

theorem mem_run {es : List (Edit Ref)} {tty : Ref} : tty ∈ run es ↔ Edit.Stays es tty := by
  have hset : {tty | tty ∈ run es} = Edit.final es := by
    induction es using List.reverseRecOn with
    | nil => exact Set.eq_empty_iff_forall_notMem.2 not_mem_empty
    | append_singleton es e ih =>
      have hrun : run (es ++ [e]) = (run es).edit e := List.foldl_append ..
      have hfinal : Edit.final (es ++ [e]) = Edit.apply (Edit.final es) e := List.foldl_append ..
      rw [hrun, hfinal, ← ih]
      exact Set.ext fun tty => mem_edit
  rw [← Edit.mem_final, ← hset]
  rfl

/-- After any history a lookup finds a terminal under its own owner and id if it was added and not deleted
since, and nothing else; no owner has an empty bucket, everything is stored under its own keys, and a
deletion changes no other lookup. -/
theorem run_refines (es : List (Edit Ref)) :
    (∀ owner id tty, (run es).get owner id = some tty ↔
      owner = tty.owner ∧ id = .int tty.objectId ∧ Edit.Stays es tty) ∧
    (∀ owner bucket, (run es).terms.lookup owner = some bucket → bucket.entries ≠ [] ∧
      ∀ id tty, bucket.lookup id = some tty → tty = ⟨owner, id⟩) ∧
    ∀ tty owner id, (owner, id) ≠ (tty.owner, .int tty.objectId) →
      ((run es).delete tty).get owner id = (run es).get owner id := by
  refine ⟨fun owner id tty => ?_, fun owner bucket hb => ?_, fun tty owner id hne => ?_⟩
  · rw [get_eq_some, mem_run]
  · exact ⟨(run es).wf.nonempty owner bucket hb, fun id tty => (run es).wf.stored owner bucket id tty hb⟩
  · cases id with
    | int id =>
      show (Terms.delete tty (run es).terms).get? owner id = (run es).terms.get? owner id
      rw [Terms.get?_delete, if_neg]
      rintro ⟨rfl, rfl⟩
      exact hne rfl
    | _ => rfl

/-! ## What `each` yields -/

theorem yields_eq (reg : Registry) :
    reg.yields = reg.terms.keys.flatMap fun owner => ((reg.terms.lookup owner).map OrdHash.values).getD [] := by
  show (reg.terms.entries.map Sigma.snd).flatMap _ = (reg.terms.entries.map Sigma.fst).flatMap _
  rw [List.flatMap_map, List.flatMap_map]
  refine List.flatMap_congr fun e he => ?_
  rw [OrdHash.mem_entries.1 (show (⟨e.1, e.2⟩ : (_ : String) × Bucket) ∈ reg.terms.entries from he)]
  rfl

theorem mem_yields {reg : Registry} {tty : Ref} : tty ∈ reg.yields ↔ tty ∈ reg := by
  simp only [yields, OrdHash.values, List.mem_flatMap, List.mem_map]
  constructor
  · rintro ⟨b, ⟨⟨owner, _⟩, hb, rfl⟩, ⟨id, _⟩, hid, rfl⟩
    rw [OrdHash.mem_entries] at hb hid
    cases reg.wf.stored owner _ id _ hb hid
    rw [mem_iff, Terms.get?, hb]
    exact hid
  · intro h
    rw [mem_iff, Terms.get?, Option.bind_eq_some_iff] at h
    obtain ⟨b, hb, hid⟩ := h
    exact ⟨b, ⟨_, OrdHash.mem_entries.2 hb, rfl⟩, _, OrdHash.mem_entries.2 hid, rfl⟩

/-- The terminals of one owner. -/
def ofOwner (reg : Registry) (owner : String) : List Ref := ((reg.terms.lookup owner).map OrdHash.values).getD []

theorem foldl_congr_of_inv {σ α : Type*} {I : σ → Prop} {g g' : σ → α → σ} : ∀ {l : List α} {s : σ}, I s →
    (∀ s, I s → ∀ a ∈ l, g s a = g' s a ∧ I (g' s a)) → l.foldl g s = l.foldl g' s ∧ I (l.foldl g' s)
  | [], _, hs, _ => ⟨rfl, hs⟩
  | a :: l, s, hs, h => by
    obtain ⟨heq, hs'⟩ := h s hs a (List.mem_cons_self ..)
    rw [List.foldl_cons, List.foldl_cons, heq]
    exact foldl_congr_of_inv hs' fun s hs b hb => h s hs b (List.mem_cons_of_mem a hb)

/-- With a loop body that leaves the registry alone `TTY.each` visits these, in this order. -/
theorem each_eq_foldl {f : Reactor → Ref → Reactor} (hf : ∀ s tty, (f s tty).terms = s.terms) (s : Reactor) :
    TTY.each f s = s.terms.yields.foldl f s := by
  have hyields : s.terms.yields = s.terms.terms.keys.flatMap s.terms.ofOwner := yields_eq s.terms
  rw [hyields, List.foldl_flatMap]
  unfold TTY.each
  refine (@foldl_congr_of_inv _ _ (fun s' : Reactor => s'.terms = s.terms) _ _ _ _ rfl fun s' hs' owner _ => ?_).1
  unfold ofOwner
  rw [hs']
  cases hb : s.terms.terms.lookup owner with
  | none => exact ⟨rfl, hs'⟩
  | some ttys =>
    refine @foldl_congr_of_inv _ _ (fun s' : Reactor => s'.terms = s.terms) _ _ _ _ hs' fun s' hs' tty htty => ?_
    have hmem : tty ∈ s'.terms := hs' ▸ mem_yields.1 (List.mem_flatMap.2 ⟨ttys, OrdHash.mem_values hb, htty⟩)
    exact ⟨if_pos hmem, (hf s' tty).trans hs'⟩

theorem mem_ofOwner {reg : Registry} {owner : String} {tty : Ref} :
    tty ∈ reg.ofOwner owner ↔ tty.owner = owner ∧ tty ∈ reg := by
  unfold ofOwner
  rw [mem_iff, Terms.get?]
  cases hb : reg.terms.lookup owner with
  | none =>
    constructor
    · intro h
      cases h
    · rintro ⟨rfl, h⟩
      rw [hb] at h
      cases h
  | some b =>
    simp only [Option.map_some, Option.getD_some, OrdHash.values, List.mem_map]
    constructor
    · rintro ⟨⟨id, r⟩, hid, rfl⟩
      rw [OrdHash.mem_entries] at hid
      cases reg.wf.stored owner b id r hb hid
      exact ⟨rfl, by rw [hb]; exact hid⟩
    · rintro ⟨rfl, h⟩
      rw [hb] at h
      exact ⟨_, OrdHash.mem_entries.2 h, rfl⟩

theorem nodup_ofOwner (reg : Registry) (owner : String) : (reg.ofOwner owner).Nodup := by
  unfold ofOwner
  cases hb : reg.terms.lookup owner with
  | none => exact List.nodup_nil
  | some b =>
    -- the object ids are the keys of the bucket
    have hkeys : (OrdHash.values b).map Ref.objectId = b.keys := by
      show (b.entries.map Sigma.snd).map _ = b.entries.map Sigma.fst
      rw [List.map_map]
      refine List.map_congr_left fun e he => ?_
      have hid := OrdHash.mem_entries.1 (show (⟨e.1, e.2⟩ : (_ : Int) × Ref) ∈ b.entries from he)
      rw [Function.comp_apply, reg.wf.stored owner b e.1 e.2 hb hid]
    exact .of_map Ref.objectId (hkeys ▸ b.keys_nodup)

theorem nodup_yields (reg : Registry) : reg.yields.Nodup := by
  rw [yields_eq]
  refine List.nodup_flatMap.2 ⟨fun owner _ => reg.nodup_ofOwner owner, reg.terms.keys_nodup.imp fun hne => ?_⟩
  intro tty h h'
  exact hne ((mem_ofOwner.1 h).1.symm.trans (mem_ofOwner.1 h').1)

/-! ## Count -/

/-- Nobody has two terminals. -/
def Single (reg : Registry) : Prop := ∀ tty ∈ reg, ∀ tty' ∈ reg, tty.owner = tty'.owner → tty = tty'

/-- `TTY.count` says how many terminals there are. -/
def CountRight (reg : Registry) : Prop := reg.count = reg.yields.length

theorem length_flatMap_iff {α β : Type*} {f : α → List β} : ∀ {l : List α}, (∀ a ∈ l, f a ≠ []) →
    ((l.flatMap f).length = l.length ↔ ∀ a ∈ l, (f a).length = 1) ∧ l.length ≤ (l.flatMap f).length
  | [], _ => by simp
  | a :: l, h => by
    have ha := List.length_pos_iff.2 (h a (List.mem_cons_self ..))
    obtain ⟨hiff, hle⟩ := length_flatMap_iff fun b hb => h b (List.mem_cons_of_mem a hb)
    simp only [List.flatMap_cons, List.length_append, List.length_cons, List.forall_mem_cons, ← hiff]
    omega

theorem ofOwner_ne_nil {reg : Registry} {owner : String} (h : owner ∈ reg.terms.keys) : reg.ofOwner owner ≠ [] := by
  rw [← AList.mem_keys, ← AList.lookup_isSome, Option.isSome_iff_exists] at h
  obtain ⟨b, hb⟩ := h
  unfold ofOwner
  rw [hb]
  simpa [OrdHash.values] using reg.wf.nonempty owner b hb

/-- The count is right exactly while every owner has one terminal. -/
theorem countRight_iff {reg : Registry} : reg.CountRight ↔ reg.Single := by
  have hcount : reg.count = reg.terms.keys.length := (List.length_map ..).symm
  have hyields : reg.yields = reg.terms.keys.flatMap reg.ofOwner := yields_eq reg
  unfold CountRight
  rw [hcount, hyields, eq_comm, (length_flatMap_iff fun owner h => ofOwner_ne_nil h).1]
  constructor
  · intro h tty htty tty' htty' ho
    have hmem := mem_ofOwner.2 ⟨rfl, htty⟩
    have hmem' := mem_ofOwner.2 ⟨ho.symm, htty'⟩
    have howner : tty.owner ∈ reg.terms.keys := by
      rw [mem_iff, Terms.get?, Option.bind_eq_some_iff] at htty
      obtain ⟨b, hb, -⟩ := htty
      rw [← AList.mem_keys, ← AList.lookup_isSome, hb]
      rfl
    obtain ⟨a, ha⟩ := List.length_eq_one_iff.1 (h _ howner)
    rw [ha, List.mem_singleton] at hmem hmem'
    rw [hmem, hmem']
  · intro h owner howner
    obtain ⟨a, l, hl⟩ := List.exists_cons_of_ne_nil (ofOwner_ne_nil howner)
    have hall : ∀ b ∈ reg.ofOwner owner, b = a := by
      intro b hb
      obtain ⟨hob, hb⟩ := mem_ofOwner.1 hb
      obtain ⟨hoa, ha⟩ := mem_ofOwner.1 (show a ∈ reg.ofOwner owner by rw [hl]; exact List.mem_cons_self ..)
      exact h b hb a ha (hob.trans hoa.symm)
    have hnodup := reg.nodup_ofOwner owner
    rw [hl] at hall hnodup ⊢
    cases l with
    | nil => rfl
    | cons b l => exact absurd (hall b (by simp)) fun he => by simp [he] at hnodup

/-- An addition is of somebody who has no other terminal. -/
def Alone (reg : Registry) (e : Edit Ref) : Prop :=
  ∀ tty, e = .add tty → ∀ tty' ∈ reg, tty'.owner = tty.owner → tty' = tty

theorem single_edit {reg : Registry} (h : reg.Single) (e : Edit Ref) : (reg.edit e).Single ↔ reg.Alone e := by
  cases e with
  | add tty =>
    constructor
    · intro hs x he tty' hm ho
      cases he
      exact hs tty' (mem_push.2 (.inr hm)) tty (mem_push.2 (.inl rfl)) ho
    · intro ha a hma b hmb ho
      rcases mem_push.1 hma with rfl | hma'
      · rcases mem_push.1 hmb with rfl | hmb'
        · rfl
        · exact (ha a rfl b hmb' ho.symm).symm
      · rcases mem_push.1 hmb with rfl | hmb'
        · exact ha b rfl a hma' ho
        · exact h a hma' b hmb' ho
  | delete tty =>
    refine ⟨fun _ x he => (by cases he), fun _ a hma b hmb ho => ?_⟩
    exact h a (mem_delete.1 hma).2 b (mem_delete.1 hmb).2 ho

def step (reg : Registry) (e : Edit Ref) : Option Registry := some (reg.edit e)

/-- After any history `each` yields the terminals that stay, once each, and the count is their number
exactly while nobody has two; throughout a history it is right exactly if nobody is ever given a second. -/
theorem count_right_iff (es : List (Edit Ref)) :
    ((run es).yields.Nodup ∧ ∀ tty, tty ∈ (run es).yields ↔ Edit.Stays es tty) ∧
    ((run es).CountRight ↔ (run es).Single) ∧
    (Machine.Always step CountRight empty es ↔ Machine.Meets step Alone empty es) := by
  refine ⟨⟨(run es).nodup_yields, fun tty => mem_yields.trans mem_run⟩, countRight_iff, ?_⟩
  refine @Machine.always_iff_meets _ _ step (fun _ => True) _ _ (fun _ _ _ _ _ => trivial) ?_ _ _ trivial ?_
  · rintro reg e reg' - h hstep
    cases hstep
    rw [countRight_iff, single_edit (countRight_iff.1 h)]
  · exact countRight_iff.2 fun tty h => (not_mem_empty tty h).elim

/-- Two terminals of one user are counted as one. -/
theorem counted_once : (run [.add ⟨"1", 8⟩, .add ⟨"1", 10⟩]).yields = [⟨"1", 8⟩, ⟨"1", 10⟩] ∧
    (run [.add ⟨"1", 8⟩, .add ⟨"1", 10⟩]).count = 1 ∧ ¬ (run [.add ⟨"1", 8⟩, .add ⟨"1", 10⟩]).CountRight := by
  have hcount : (run [.add ⟨"1", 8⟩, .add ⟨"1", 10⟩]).count = 1 := by decide
  have hyields : (run [.add ⟨"1", 8⟩, .add ⟨"1", 10⟩]).yields = [⟨"1", 8⟩, ⟨"1", 10⟩] := by decide
  refine ⟨hyields, hcount, fun h => ?_⟩
  rw [CountRight, hcount, hyields] at h
  cases h

end Registry

end Tangle.TTY
