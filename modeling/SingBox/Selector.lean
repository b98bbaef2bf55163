/-
**Members of a live selector** (`protocol/group/selector.go`).

A selector keeps its members in a map from tags to outbounds, guarded by a lock, and the selected
outbound in an atomic pointer, which is not.  `SelectOutbound` looks the outbound up under the lock
and stores it afterwards; `RemoveMember` chooses another outbound under the lock, if the removed one
was selected, and stores it afterwards.  Between the two, other calls can take the outbound out of
the map.  `AddMember` does not look at the selected outbound at all, also if it replaces it.

The sections under the lock are single steps, and so are the stores that are still to be made.

* `Selector.kept_step` — one careful step keeps the invariant;
* `Selector.fresh_of_careful` — **the selection is never stale after careful steps**.
-/

import SingBox.GoString
import SingBox.Schedule
import Mathlib.Data.List.Nodup

namespace SingBox

open List Function Option Except

/-- `Selector`.  Outbounds are objects with an identity; `pending` are the objects that calls in
progress have still to store as selected. -/
structure Selector where
  tags : List GoString
  defaultTag : GoString
  outbounds : GoString → Option ℕ
  selected : Option ℕ
  pending : List ℕ := []

namespace Selector

open GoString

/-! ### Starting -/

/-- The loop of `Start`: every configured tag is looked up in the outbound manager. -/
def lookupAll (manager : GoString → Option ℕ) :
    List GoString → ℕ → (GoString → Option ℕ) → Except GoError (GoString → Option ℕ)
  | [], _, outbounds => .ok outbounds
  | tag :: tags, i, outbounds =>
    match manager tag with
    | none =>
      .error (.new ("outbound " ++ ofNat i ++ " not found: " ++ tag))
    | some detour =>
      lookupAll manager tags (i + 1) (Function.update outbounds tag (some detour))

/-- The choice of `Start`: the selection of the cache file, the default, or the first tag. -/
def initialSelection (tags : List GoString) (defaultTag : GoString) (cached : Option GoString)
    (outbounds : GoString → Option ℕ) : Except GoError (Option ℕ) :=
  match cached.bind outbounds with
  | some detour => .ok (some detour)
  | none =>
    if defaultTag ≠ [] then
      match outbounds defaultTag with
      | none => .error (.new ("default outbound not found: " ++ defaultTag))
      | some detour => .ok (some detour)
    else .ok (tags.head?.bind outbounds)

/-- `NewSelector` and `Start`.  `cached` is what the cache file has for the tag of the selector, if
it has a tag and there is such a file. -/
def start (tags : List GoString) (defaultTag : GoString) (manager : GoString → Option ℕ)
    (cached : Option GoString) : Except GoError Selector :=
  if tags = [] then .error (.new "missing tags")
  else do
    let outbounds ← lookupAll manager tags 0 fun _ => none
    let selected ← initialSelection tags defaultTag cached outbounds
    return { tags := tags, defaultTag := defaultTag, outbounds := outbounds, selected := selected }

/-! ### Calls -/

/-- `AddMember`. -/
def addMember (s : Selector) (tag : GoString) (detour : ℕ) : Selector :=
  { s with
    tags := if (s.outbounds tag).isSome then s.tags else s.tags ++ [tag]
    outbounds := Function.update s.outbounds tag (some detour) }

/-- The outbound that `RemoveMember` chooses in the place of a selected one. -/
def fallback (defaultTag : GoString) (tags : List GoString) (outbounds : GoString → Option ℕ) :
    Option ℕ :=
  match outbounds defaultTag with
  | some detour => some detour
  | none => tags.head?.bind outbounds

/-- `RemoveMember`, as far as it holds the lock. -/
def removeMember (s : Selector) (tag : GoString) : Selector :=
  match s.outbounds tag with
  | none => s
  | some removed =>
    let outbounds := Function.update s.outbounds tag none
    let tags := s.tags.erase tag
    { s with
      tags := tags
      outbounds := outbounds
      pending :=
        if s.selected = some removed then
          s.pending ++ (fallback s.defaultTag tags outbounds).toList
        else s.pending }

/-- `SelectOutbound`, as far as it holds the lock. -/
def selectOutbound (s : Selector) (tag : GoString) : Selector :=
  { s with pending := s.pending ++ (s.outbounds tag).toList }

/-- What can happen. -/
inductive Event where
  | addMember (tag : GoString) (detour : ℕ)
  | removeMember (tag : GoString)
  | selectOutbound (tag : GoString)
  /-- The store that is at this place among those to be made. -/
  | store (i : ℕ)

/-- One step of one call. -/
def step (s : Selector) : Event → Option Selector
  | .addMember tag detour => some (s.addMember tag detour)
  | .removeMember tag => some (s.removeMember tag)
  | .selectOutbound tag => some (s.selectOutbound tag)
  | .store i =>
    s.pending[i]?.map fun detour =>
      { s with selected := some detour, pending := s.pending.eraseIdx i }

/-! ### Stale selections -/

/-- The object is registered under one of the tags. -/
def Live (s : Selector) (o : ℕ) : Prop := ∃ tag, s.outbounds tag = some o

/-- What is expected of a selector when no call is in progress: if it has members, the selected
object is one of them, and every member has its tag in the list exactly once. -/
structure Fresh (s : Selector) : Prop where
  selected : s.pending = [] → (∃ tag, (s.outbounds tag).isSome) →
    ∃ o, s.selected = some o ∧ s.Live o
  tags : s.pending = [] → ∀ tag, (s.outbounds tag).isSome → s.tags.count tag = 1

/-- The object is still a member after the tag has got another object or none. -/
def Stays (s : Selector) (tag : GoString) (detour : Option ℕ) (o : ℕ) : Prop :=
  s.outbounds tag = some o →
    detour = some o ∨ ∃ tag' ∈ s.tags, tag' ≠ tag ∧ s.outbounds tag' = some o

instance (s : Selector) (tag : GoString) (detour : Option ℕ) (o : ℕ) :
    Decidable (s.Stays tag detour o) :=
  inferInstanceAs (Decidable (_ → _))

/-- The steps that take no object away from somebody who is about to select it: what is replaced or
removed is not to be stored by a call in progress; when there is no such call, what is replaced is
not selected, and the first member of an empty selector is the object that is selected already. -/
def Careful (s : Selector) : Event → Prop
  | .addMember tag detour =>
    (∀ o ∈ s.pending, s.Stays tag (some detour) o) ∧
      (s.pending = [] →
        (∀ o ∈ s.selected, s.Stays tag (some detour) o) ∧
          (s.tags = [] → s.selected = some detour))
  | .removeMember tag => ∀ o ∈ s.pending, s.Stays tag none o
  | _ => True

instance (s : Selector) (e : Event) : Decidable (s.Careful e) :=
  match e with
  | .addMember tag detour =>
    inferInstanceAs (Decidable ((∀ o ∈ s.pending, s.Stays tag (some detour) o) ∧
      (s.pending = [] →
        (∀ o ∈ s.selected, s.Stays tag (some detour) o) ∧
          (s.tags = [] → s.selected = some detour))))
  | .removeMember tag => inferInstanceAs (Decidable (∀ o ∈ s.pending, s.Stays tag none o))
  | .selectOutbound _ => inferInstanceAs (Decidable True)
  | .store _ => inferInstanceAs (Decidable True)

/-! ### The invariant -/

/-- The tags are those of the members, what is to be stored is a member, and so is what is selected
if nothing is to be stored. -/
structure Kept (s : Selector) : Prop where
  nodup : s.tags.Nodup
  mem_tags : ∀ tag, tag ∈ s.tags ↔ (s.outbounds tag).isSome
  pending : ∀ o ∈ s.pending, s.Live o
  selected : s.pending = [] → s.tags ≠ [] → ∃ o, s.selected = some o ∧ s.Live o

variable {s : Selector}

theorem Kept.fresh (h : s.Kept) : s.Fresh where
  selected := by
    rintro hpending ⟨tag, htag⟩
    exact h.selected hpending (ne_nil_of_mem ((h.mem_tags tag).2 htag))
  tags := by
    intro _ tag htag
    exact count_eq_one_of_mem h.nodup ((h.mem_tags tag).2 htag)

variable {tag : GoString}

theorem Live.update {detour : Option ℕ} {o : ℕ} (h : s.Live o) (hstays : s.Stays tag detour o) :
    ∃ tag', Function.update s.outbounds tag detour tag' = some o := by
  obtain ⟨tag', htag'⟩ := h
  by_cases hsame : tag' = tag
  · subst hsame
    rcases hstays htag' with rfl | ⟨other, -, hne, hother⟩
    · exact ⟨tag', update_self ..⟩
    · exact ⟨other, by rw [update_of_ne hne, hother]⟩
  · exact ⟨tag', by rw [update_of_ne hsame, htag']⟩

theorem Kept.addMember {detour : ℕ} (h : s.Kept)
    (hcareful : s.Careful (.addMember tag detour)) : (s.addMember tag detour).Kept where
  nodup := by
    unfold Selector.addMember
    dsimp only
    split
    · exact h.nodup
    · rename_i hnew
      have hnotMem : tag ∉ s.tags := fun hmem => hnew ((h.mem_tags tag).1 hmem)
      rw [nodup_append]
      refine ⟨h.nodup, by simp, fun a ha b hb => ?_⟩
      rw [List.mem_singleton.1 hb]
      exact fun hab => hnotMem (hab ▸ ha)
  mem_tags := by
    intro tag'
    unfold Selector.addMember
    dsimp only
    by_cases hsame : tag' = tag
    · subst hsame
      rw [update_self]
      split
      · rename_i hold
        exact iff_of_true ((h.mem_tags tag').2 hold) rfl
      · simp
    · rw [update_of_ne hsame, ← h.mem_tags tag']
      split
      · rfl
      · simp [hsame]
  pending := by
    intro o ho
    exact (h.pending o ho).update (hcareful.1 o ho)
  selected := by
    intro hpending _
    obtain ⟨hselected, hfirst⟩ := hcareful.2 hpending
    by_cases hempty : s.tags = []
    · -- the first member is the object that is selected already
      exact ⟨detour, hfirst hempty, tag, update_self ..⟩
    · obtain ⟨o, ho, hlive⟩ := h.selected hpending hempty
      exact ⟨o, ho, hlive.update (hselected o ho)⟩

variable {defaultTag : GoString} {outbounds : GoString → Option ℕ}

variable {tags : List GoString}

theorem fallback_spec (htags : ∀ tag ∈ tags, (outbounds tag).isSome) :
    (∀ o, fallback defaultTag tags outbounds = some o → ∃ tag, outbounds tag = some o) ∧
      (tags ≠ [] → (fallback defaultTag tags outbounds).isSome) := by
  unfold fallback
  cases hdefault : outbounds defaultTag with
  | some detour => exact ⟨fun o ho => ⟨defaultTag, hdefault.trans ho⟩, fun _ => rfl⟩
  | none =>
    cases tags with
    | nil => exact ⟨fun o ho => (by cases ho), fun hne => absurd rfl hne⟩
    | cons tag tags =>
      exact ⟨fun o ho => ⟨tag, ho⟩, fun _ => htags tag mem_cons_self⟩

theorem Kept.removeMember (h : s.Kept)
    (hcareful : s.Careful (.removeMember tag)) : (s.removeMember tag).Kept := by
  unfold Selector.removeMember
  cases hremoved : s.outbounds tag with
  | none => exact h
  | some removed =>
    dsimp only
    have hmem : ∀ tag', tag' ∈ s.tags.erase tag ↔
        (Function.update s.outbounds tag none tag').isSome := by
      intro tag'
      rw [h.nodup.mem_erase_iff, h.mem_tags tag']
      by_cases hsame : tag' = tag
      · subst hsame
        simp
      · simp [hsame]
    have hfallback := @fallback_spec s.defaultTag _ _ fun tag' => (hmem tag').1
    refine ⟨h.nodup.erase tag, hmem, fun o ho => ?_, fun hpending hne => ?_⟩
    · have hold : o ∈ s.pending → ∃ tag', Function.update s.outbounds tag none tag' = some o :=
        fun ho => (h.pending o ho).update (hcareful o ho)
      dsimp only at ho
      split at ho
      · rcases List.mem_append.1 ho with ho | ho
        · exact hold ho
        · exact hfallback.1 o (Option.mem_toList.1 ho)
      · exact hold ho
    · dsimp only at hpending hne ⊢
      split at hpending
      · -- a removed selection leaves a store to be made, if there is a member left
        obtain ⟨o, ho⟩ := Option.isSome_iff_exists.1 (hfallback.2 hne)
        rw [ho] at hpending
        simp at hpending
      · rename_i hother
        obtain ⟨o, ho, tag', htag'⟩ := h.selected hpending (by
          rintro hnil
          rw [hnil] at hne
          exact hne rfl)
        refine ⟨o, ho, tag', ?_⟩
        have hsame : tag' ≠ tag := by
          rintro rfl
          rw [hremoved] at htag'
          exact hother (ho.trans htag'.symm)
        dsimp only
        rw [update_of_ne hsame, htag']

/-- **One careful step keeps the invariant.** -/
theorem kept_step {s s' : Selector} {e : Event} (h : step s e = some s') (hcareful : s.Careful e)
    (hs : s.Kept) : s'.Kept := by
  cases e with
  | addMember tag detour =>
    obtain rfl := some.inj h
    exact hs.addMember hcareful
  | removeMember tag =>
    obtain rfl := some.inj h
    exact hs.removeMember hcareful
  | selectOutbound tag =>
    obtain rfl := some.inj h
    refine ⟨hs.nodup, hs.mem_tags, fun o ho => ?_, fun hpending hne => ?_⟩
    · rcases List.mem_append.1 ho with ho | ho
      · exact hs.pending o ho
      · exact ⟨tag, Option.mem_toList.1 ho⟩
    · exact hs.selected (List.append_eq_nil_iff.1 hpending).1 hne
  | store i =>
    obtain ⟨detour, hdetour, rfl⟩ := Option.map_eq_some_iff.1 h
    have hlive := hs.pending detour (mem_of_getElem? hdetour)
    exact ⟨hs.nodup, hs.mem_tags, fun o ho => hs.pending o (mem_of_mem_eraseIdx ho),
      fun _ _ => ⟨detour, rfl, hlive⟩⟩

/-! ### Whole histories -/

variable {manager : GoString → Option ℕ}

theorem lookupAll_spec {i : ℕ} {outbounds result : GoString → Option ℕ}
    (h : lookupAll manager tags i outbounds = .ok result) :
    (result tag).isSome ↔ tag ∈ tags ∨ (outbounds tag).isSome := by
  induction tags generalizing i outbounds with
  | nil =>
    obtain rfl : outbounds = result := ok.inj h
    simp
  | cons first tags ih =>
    rw [lookupAll] at h
    cases hfirst : manager first with
    | none =>
      rw [hfirst] at h
      cases h
    | some detour =>
      rw [hfirst] at h
      rw [ih h, mem_cons]
      by_cases hsame : tag = first
      · simp [hsame]
      · simp [hsame]

theorem initialSelection_spec {cached : Option GoString} {selected : Option ℕ}
    (h : initialSelection tags defaultTag cached outbounds = .ok selected) (hne : tags ≠ [])
    (htags : ∀ tag ∈ tags, (outbounds tag).isSome) :
    ∃ o, selected = some o ∧ ∃ tag, outbounds tag = some o := by
  unfold initialSelection at h
  cases hcached : cached.bind outbounds with
  | some detour =>
    rw [hcached] at h
    obtain ⟨tag, -, htag⟩ := Option.bind_eq_some_iff.1 hcached
    exact ⟨detour, (ok.inj h).symm, tag, htag⟩
  | none =>
    rw [hcached] at h
    dsimp only at h
    split at h
    · cases hdefault : outbounds defaultTag with
      | none =>
        rw [hdefault] at h
        cases h
      | some detour =>
        rw [hdefault] at h
        exact ⟨detour, (ok.inj h).symm, defaultTag, hdefault⟩
    · obtain ⟨tag, rest, rfl⟩ := exists_cons_of_ne_nil hne
      obtain ⟨o, ho⟩ := Option.isSome_iff_exists.1 (htags tag mem_cons_self)
      have hselected : outbounds tag = selected := ok.inj h
      exact ⟨o, hselected.symm.trans ho, tag, ho⟩

theorem kept_start {cached : Option GoString}
    (h : start tags defaultTag manager cached = .ok s) (hnodup : tags.Nodup) : s.Kept := by
  unfold start at h
  split at h
  · cases h
  · rename_i hne
    cases hlookup : lookupAll manager tags 0 fun _ => none with
    | error err =>
      rw [hlookup] at h
      cases h
    | ok outbounds =>
      rw [hlookup] at h
      cases hselected : initialSelection tags defaultTag cached outbounds with
      | error err =>
        simp only [bind, Except.bind, hselected] at h
        cases h
      | ok selected =>
        simp only [bind, Except.bind, hselected] at h
        obtain rfl := ok.inj h
        have hmem : ∀ tag, tag ∈ tags ↔ (outbounds tag).isSome := fun tag => by
          rw [lookupAll_spec hlookup]
          simp
        exact ⟨hnodup, hmem, fun o ho => by simp at ho, fun _ _ =>
          initialSelection_spec hselected hne fun tag => (hmem tag).1⟩

/-- **The selection of a selector with different tags is never stale after careful steps**, and its
list of tags is that of its members. -/
theorem fresh_of_careful {tags : List GoString} {defaultTag : GoString}
    {manager : GoString → Option ℕ} {cached : Option GoString} {s₀ s : Selector}
    {events : List Event} (hstart : start tags defaultTag manager cached = .ok s₀)
    (hnodup : tags.Nodup) (hrun : Schedule.run step s₀ events = some s)
    (hcareful : Schedule.Along step Careful s₀ events) : s.Fresh := by
  have hkept : s.Kept := Schedule.run_invariant (I := Kept) (P := Careful)
    (fun _ _ _ hstep hcareful hs => kept_step hstep hcareful hs) hrun hcareful
    (kept_start hstart hnodup)
  exact hkept.fresh

/-- A manager with two outbounds. -/
def twoOutbounds : GoString → Option ℕ :=
  Function.update (Function.update (fun _ => none) "a" (some 0)) "b" (some 1)

/-- The selector over both of them, with the first one selected. -/
def twoMembers : Selector where
  tags := ["a", "b"]
  defaultTag := []
  outbounds := twoOutbounds
  selected := some 0

/-- The second member is selected and removed, and another one is added. -/
def selectAndRemove : List Event :=
  [.selectOutbound "b", .store 0, .removeMember "b", .store 0,
    .addMember "c" 2]

theorem selectAndRemove_fresh :
    ∃ s, start ["a", "b"] [] twoOutbounds none = .ok twoMembers ∧
      Schedule.run step twoMembers selectAndRemove = some s ∧
      s.selected = some 0 ∧ s.tags = [ofString "a", ofString "c"] ∧ s.Fresh := by
  have hstart : start ["a", "b"] [] twoOutbounds none = .ok twoMembers := rfl
  have hsome : ((Schedule.run step twoMembers selectAndRemove).map fun s =>
      (s.selected, s.tags)) = some (some 0, [ofString "a", ofString "c"]) := by decide
  have hcareful : Schedule.Along step Careful twoMembers selectAndRemove := by decide
  obtain ⟨s, hrun, hpair⟩ := Option.map_eq_some_iff.1 hsome
  obtain ⟨hselected, htags⟩ := Prod.mk.inj hpair
  exact ⟨s, hstart, hrun, hselected, htags, fresh_of_careful hstart (by decide) hrun hcareful⟩

theorem replaced_not_fresh :
    start ["a", "b"] [] twoOutbounds none = .ok twoMembers ∧
      Schedule.run step twoMembers [.addMember "a" 2] = some (twoMembers.addMember "a" 2) ∧
      (twoMembers.addMember "a" 2).pending = [] ∧
      ¬(twoMembers.addMember "a" 2).Fresh := by
  refine ⟨rfl, rfl, rfl, fun hfresh => ?_⟩
  obtain ⟨o, ho, tag, htag⟩ := hfresh.selected rfl ⟨"a", rfl⟩
  obtain rfl : 0 = o := some.inj ho
  -- no tag has the object that was replaced
  have hnone : ∀ tag, Function.update twoOutbounds "a" (some 2) tag ≠ some 0 := by
    intro tag
    unfold twoOutbounds
    by_cases ha : tag = "a"
    · simp [ha]
    · by_cases hb : tag = "b"
      · rw [update_of_ne ha, hb, update_self]
        simp
      · rw [update_of_ne ha, update_of_ne hb, update_of_ne ha]
        simp
  exact hnone tag htag

end Selector

end SingBox
