/-
  Links in force.

  A link is LIVE when it feeds its target.  This module says what each change of a wiring does to the
  live links, and what that means for the links that outputs are known by.

  1. **Targets** — one equation for each change: `feeding?_insert`, `feeding?_removeInto`,
     `feeding?_removeNode`.  All links are stored under their own targets (`Keyed`), so the list of links
     holds the live ones (`mem_links_iff`), each before those with greater targets (`links_sorted`).

  2. **Sources** — an output that feeds several inputs is known by one of its links.  `Tracks w last e`
     says which: the link that `last` names while it is live, and else the live link with the least
     target (`IsFirst`).  `bySource` is mended only after `byTarget` has changed, and only for the link
     that was taken out; `tracks_forgetSource` shows that this is enough.
-/
import FragmentGraph.Proofs.Socket.Key
import FragmentGraph.Wiring.Basic
import Mathlib.Tactic.ByContra

namespace FragmentGraph

open Std (ExtTreeMap)

namespace Wiring

variable {w v : Wiring} {l old : Link} {e s t : Socket} {id : NodeId}

/-- The link feeds its target. -/
def Live (w : Wiring) (l : Link) : Prop := w.feeding? l.target = some l

/-- Every link is stored under its own target. -/
def Keyed (w : Wiring) : Prop := ∀ t l, w.feeding? t = some l → l.target = t

/-- The link that feeds an input is live. -/
theorem Keyed.live (hw : w.Keyed) (h : w.feeding? t = some l) : w.Live l := by
  rw [Live, hw t l h]; exact h

/-- Live links with one target are the same. -/
theorem Live.unique (hl : w.Live l) (hold : w.Live old) (h : l.target = old.target) : l = old := by
  rw [Live, h] at hl
  exact Option.some.inj (hl.symm.trans hold)

/-! ## What feeds a target -/

@[simp] theorem byTarget_forgetSource (w : Wiring) (l : Link) :
    (w.forgetSource l).byTarget = w.byTarget := by
  rw [forgetSource]
  split
  · dsimp only
    split <;> rfl
  · rfl

@[simp] theorem feeding?_forgetSource (w : Wiring) (l : Link) (t : Socket) :
    (w.forgetSource l).feeding? t = w.feeding? t := by
  rw [feeding?, byTarget_forgetSource, feeding?]

@[simp] theorem live_forgetSource : (w.forgetSource old).Live l ↔ w.Live l := by
  rw [Live, Live, feeding?_forgetSource]

theorem exchange_fst (w : Wiring) (l : Link) : (w.exchange l).1 = w.feeding? l.target := rfl

theorem extract_fst (w : Wiring) (t : Socket) : (w.extract t).1 = w.feeding? t := by
  rw [extract, LinkIndex.extract]
  show (match (w.feeding? t, w.byTarget.erase t.key) with
    | (some old, byTarget) => (some old, forgetSource ⟨byTarget, w.bySource⟩ old)
    | (none, _) => (none, w)).1 = w.feeding? t
  cases w.feeding? t <;> rfl

/-- `insert` with the link that it displaces in view. -/
theorem insert_eq (w : Wiring) (l : Link) :
    w.insert l =
      let placed : Wiring := ⟨w.byTarget.insert l.target.key l, w.bySource⟩
      let settled := match w.feeding? l.target with
        | some old => placed.forgetSource old
        | none => placed
      ⟨settled.byTarget, settled.bySource.insert l.source.key l⟩ := rfl

theorem removeInto_of_none (h : w.feeding? t = none) : w.removeInto t = w := by
  rw [feeding?] at h
  simp only [removeInto, extract, LinkIndex.extract, h]

theorem removeInto_of_some (h : w.feeding? t = some old) :
    w.removeInto t = forgetSource ⟨w.byTarget.erase t.key, w.bySource⟩ old := by
  rw [feeding?] at h
  simp only [removeInto, extract, LinkIndex.extract, h]

theorem feeding?_place (byTarget bySource : LinkIndex) (l : Link) (t : Socket) :
    feeding? ⟨byTarget.insert l.target.key l, bySource⟩ t
      = if l.target = t then some l else feeding? ⟨byTarget, bySource⟩ t := by
  simp only [feeding?, ExtTreeMap.getElem?_insert, Std.compare_eq_iff_eq, Socket.key_inj]

theorem feeding?_erase (byTarget bySource : LinkIndex) (s t : Socket) :
    feeding? ⟨byTarget.erase s.key, bySource⟩ t
      = if s = t then none else feeding? ⟨byTarget, bySource⟩ t := by
  simp only [feeding?, ExtTreeMap.getElem?_erase, Std.compare_eq_iff_eq, Socket.key_inj]

/-- A new link feeds its target; nothing else changes. -/
theorem feeding?_insert (w : Wiring) (l : Link) (t : Socket) :
    (w.insert l).feeding? t = if l.target = t then some l else w.feeding? t := by
  rw [← feeding?_place w.byTarget w.bySource, insert_eq]
  cases w.feeding? l.target with
  | none => rfl
  | some old => simp only [feeding?, byTarget_forgetSource]

/-- The target is fed no more; nothing else changes. -/
theorem feeding?_removeInto (w : Wiring) (s t : Socket) :
    (w.removeInto s).feeding? t = if s = t then none else w.feeding? t := by
  cases h : w.feeding? s with
  | none =>
    rw [removeInto_of_none h]
    split
    · next heq => rw [← heq]; exact h
    · rfl
  | some old => rw [removeInto_of_some h, feeding?_forgetSource, feeding?_erase]

/-! The next four read off what follows when `v` is `w` with nothing at `t`, or with `l` in place of what
    fed its target, whatever else may differ. -/

theorem Keyed.of_clear (hw : w.Keyed)
    (hclear : ∀ s, v.feeding? s = if t = s then none else w.feeding? s) : v.Keyed := by
  intro s l' h
  rw [hclear] at h
  split at h
  · simp at h
  · exact hw s l' h

theorem live_of_clear (hclear : ∀ s, v.feeding? s = if t = s then none else w.feeding? s) :
    v.Live old ↔ w.Live old ∧ old.target ≠ t := by
  rw [Live, hclear]
  split
  · next heq => simp [heq]
  · next hne => exact ⟨fun h => ⟨h, Ne.symm hne⟩, fun h => h.1⟩

theorem Keyed.of_place (hw : w.Keyed)
    (hplace : ∀ s, v.feeding? s = if l.target = s then some l else w.feeding? s) : v.Keyed := by
  intro s l' h
  rw [hplace] at h
  split at h
  · next heq => rw [← Option.some.inj h]; exact heq
  · exact hw s l' h

/-- Where a link takes an input, the live links are that one and those into other inputs. -/
theorem live_of_place (hplace : ∀ s, v.feeding? s = if l.target = s then some l else w.feeding? s) :
    v.Live old ↔ old = l ∨ (w.Live old ∧ old.target ≠ l.target) := by
  rw [Live, hplace]
  split
  · next heq => simp [heq, eq_comm]
  · next hne =>
    constructor
    · exact fun h => Or.inr ⟨h, Ne.symm hne⟩
    · rintro (rfl | h)
      · exact absurd rfl hne
      · exact h.1

theorem Keyed.insert (hw : w.Keyed) (l : Link) : (w.insert l).Keyed :=
  hw.of_place (feeding?_insert w l)

theorem Keyed.removeInto (hw : w.Keyed) (t : Socket) : (w.removeInto t).Keyed :=
  hw.of_clear (feeding?_removeInto w t)

theorem live_insert : (w.insert l).Live old ↔ old = l ∨ (w.Live old ∧ old.target ≠ l.target) :=
  live_of_place (feeding?_insert w l)

theorem live_removeInto : (w.removeInto t).Live l ↔ w.Live l ∧ l.target ≠ t :=
  live_of_clear (feeding?_removeInto w t)

/-! ## The list of links -/

/-- The list of links holds the live ones. -/
theorem mem_links_iff (hw : w.Keyed) : l ∈ w.links ↔ w.Live l := by
  constructor
  · intro h
    obtain ⟨⟨k, _⟩, hk, rfl⟩ := List.mem_map.mp h
    obtain ⟨t, rfl⟩ := SocketKey.exists_socket k
    exact hw.live (ExtTreeMap.mem_toList_iff_getElem?_eq_some.mp hk)
  · intro h
    exact List.mem_map.mpr ⟨(_, l), ExtTreeMap.mem_toList_iff_getElem?_eq_some.mpr h, rfl⟩

/-- The list of links is in the order of the targets. -/
theorem links_sorted (hw : w.Keyed) :
    w.links.Pairwise fun a b => a.target.compare b.target = .lt := by
  have hkey : ∀ entry ∈ w.byTarget.toList, entry.1 = entry.2.target.key := by
    rintro ⟨k, l⟩ hk
    obtain ⟨t, rfl⟩ := SocketKey.exists_socket k
    rw [hw t l (ExtTreeMap.mem_toList_iff_getElem?_eq_some.mp hk)]
  rw [links, LinkIndex.links, List.pairwise_map]
  refine ExtTreeMap.ordered_keys_toList.imp_of_mem fun {a b} ha hb h => ?_
  rw [← Socket.compare_key, ← hkey a ha, ← hkey b hb]
  exact h

theorem touches_iff : l.touches id = true ↔ l.source.node = id ∨ l.target.node = id := by
  simp [Link.touches]

/-- What is removed with a node are the live links that touch it, in the order of their targets. -/
theorem mem_extractNode_iff (hw : w.Keyed) : l ∈ (w.extractNode id).1 ↔
    w.Live l ∧ (l.source.node = id ∨ l.target.node = id) := by
  show l ∈ w.links.filter (·.touches id) ↔ _
  rw [List.mem_filter, mem_links_iff hw, touches_iff]

theorem extractNode_sorted (hw : w.Keyed) (id : NodeId) :
    (w.extractNode id).1.Pairwise fun a b => a.target.compare b.target = .lt :=
  (links_sorted hw).filter _

/-- Clearing targets one after the other keeps links under their own targets. -/
theorem Keyed.clear (hw : w.Keyed) (ls : List Link) :
    (ls.foldl (fun w l => w.removeInto l.target) w).Keyed := by
  induction ls generalizing w with
  | nil => exact hw
  | cons l ls ih => exact ih (hw.removeInto l.target)

/-- Clearing targets one after the other leaves the live links with other targets. -/
theorem live_clear (ls : List Link) :
    (ls.foldl (fun w l => w.removeInto l.target) w).Live old ↔
      w.Live old ∧ ∀ l ∈ ls, old.target ≠ l.target := by
  induction ls generalizing w with
  | nil => simp
  | cons l ls ih =>
    rw [List.foldl_cons, ih, live_removeInto, and_assoc, List.forall_mem_cons]

theorem Keyed.removeNode (hw : w.Keyed) (id : NodeId) : (w.removeNode id).Keyed :=
  hw.clear (w.touching id)

/-- Removing a node leaves the live links that do not touch it. -/
theorem live_removeNode (hw : w.Keyed) :
    (w.removeNode id).Live l ↔ w.Live l ∧ ¬ (l.source.node = id ∨ l.target.node = id) := by
  have hclear : (w.removeNode id).Live l ↔
      w.Live l ∧ ∀ old ∈ (w.extractNode id).1, l.target ≠ old.target :=
    live_clear (w.extractNode id).1
  rw [hclear]
  refine and_congr_right fun hl => ⟨fun h htouch => ?_, fun h old hold heq => ?_⟩
  · exact h l ((mem_extractNode_iff hw).mpr ⟨hl, htouch⟩) rfl
  · obtain ⟨hlive, htouch⟩ := (mem_extractNode_iff hw).mp hold
    obtain rfl : l = old := hl.unique hlive heq
    exact h htouch

/-! ## The first link of an output -/

/-- `IsFirst w e l` — of the live links from `e`, the link `l` has the least target. -/
def IsFirst (w : Wiring) (e : Socket) (l : Link) : Prop :=
  w.Live l ∧ l.source = e ∧
    ∀ l', w.Live l' → l'.source = e → (l.target.compare l'.target).isLE = true

/-- Links ordered both ways by their targets have the same target. -/
theorem target_eq_of_isLE {a b : Link} (hab : (a.target.compare b.target).isLE = true)
    (hba : (b.target.compare a.target).isLE = true) : a.target = b.target := by
  rw [← Socket.compare_key] at hab hba
  exact Socket.key_inj.mp (Std.LawfulEqCmp.compare_eq_iff_eq.mp (Std.OrientedCmp.isLE_antisymm hab hba))

theorem IsFirst.unique (hl : w.IsFirst e l) (hold : w.IsFirst e old) : l = old :=
  hl.1.unique hold.1 (target_eq_of_isLE (hl.2.2 old hold.1 hold.2.1) (hold.2.2 l hl.1 hl.2.1))

/-- The first link found from an output is the one with the least target. -/
theorem isFirst_of_find? (hw : w.Keyed) {p : Link → Bool} (hp : ∀ l, w.Live l → (p l ↔ l.source = e))
    (h : w.links.find? p = some l) : w.IsFirst e l := by
  obtain ⟨hpl, before, after, hsplit, hbefore⟩ := List.find?_eq_some_iff_append.mp h
  have hl : w.Live l := (mem_links_iff hw).mp (List.mem_of_find?_eq_some h)
  refine ⟨hl, (hp l hl).mp hpl, fun l' hl' hs => ?_⟩
  have hsorted := links_sorted hw
  have hmem := (mem_links_iff hw).mpr hl'
  rw [hsplit] at hsorted hmem
  rcases List.mem_append.mp hmem with hin | hin
  · have hno := hbefore l' hin
    simp [(hp l' hl').mpr hs] at hno
  · rcases List.mem_cons.mp hin with rfl | hin
    · rw [← Socket.compare_key]
      simp
    · have hlt := (List.pairwise_cons.mp (List.pairwise_append.mp hsorted).2.1).1 l' hin
      rw [hlt]
      rfl

/-- An output that feeds any input has a first link. -/
theorem exists_isFirst (hw : w.Keyed) (hl : w.Live l) (hs : l.source = e) : ∃ l', w.IsFirst e l' := by
  have hsome : (w.links.find? fun o => o.source = e).isSome := by
    rw [List.find?_isSome]
    exact ⟨l, (mem_links_iff hw).mpr hl, by simpa using hs⟩
  obtain ⟨l', hl'⟩ := Option.isSome_iff_exists.mp hsome
  exact ⟨l', isFirst_of_find? hw (fun o _ => by simp) hl'⟩

/-! ## The link that an output is known by -/

/-- `Tracks w last e` — the output `e` is known by the link that `last` names while that is live, and
    else by the first of its live links. -/
structure Tracks (w : Wiring) (last : Link → Prop) (e : Socket) : Prop where
  of_live : ∀ l, last l → w.Live l → w.drivenBy? e = some l
  of_dead : (∀ l, last l → ¬ w.Live l) → ∀ l, w.drivenBy? e = some l ↔ w.IsFirst e l

/-- The link that `e` is known by is live and starts at `e`. -/
theorem Tracks.live {last : Link → Prop} (h : w.Tracks last e) (hlast : ∀ l, last l → l.source = e)
    (hl : w.drivenBy? e = some l) : w.Live l ∧ l.source = e := by
  by_cases hlive : ∃ l', last l' ∧ w.Live l'
  · obtain ⟨l', hl', hlive⟩ := hlive
    obtain rfl : l' = l := Option.some.inj ((h.of_live l' hl' hlive).symm.trans hl)
    exact ⟨hlive, hlast l' hl'⟩
  · have hfirst := (h.of_dead (fun l' hl' hlive' => hlive ⟨l', hl', hlive'⟩) l).mp hl
    exact ⟨hfirst.1, hfirst.2.1⟩

/-- An output is known by no link exactly when it feeds nothing. -/
theorem Tracks.eq_none_iff {last : Link → Prop} (hw : w.Keyed) (h : w.Tracks last e)
    (hlast : ∀ l, last l → l.source = e) :
    w.drivenBy? e = none ↔ ∀ l, w.Live l → l.source ≠ e := by
  constructor
  · intro hnone l hl hs
    by_cases hlive : ∃ l', last l' ∧ w.Live l'
    · obtain ⟨l', hl', hlive⟩ := hlive
      simp [h.of_live l' hl' hlive] at hnone
    · obtain ⟨l', hl'⟩ := exists_isFirst hw hl hs
      rw [← h.of_dead (fun l hl hlive' => hlive ⟨l, hl, hlive'⟩) l', hnone] at hl'
      simp at hl'
  · intro hnone
    cases hd : w.drivenBy? e with
    | none => rfl
    | some l => exact absurd (h.live hlast hd).2 (hnone l (h.live hlast hd).1)

/-- Forgetting a link matters to its own source alone, and there only if the source is known by that link:
    it is then known by the first of the other links from it, or by none. -/
theorem drivenBy?_forgetSource (v : Wiring) (old : Link) (e : Socket) :
    (v.forgetSource old).drivenBy? e =
      if old.source = e ∧ v.drivenBy? e = some old then
        v.links.find? fun other => other.source = old.source ∧ other ≠ old
      else v.drivenBy? e := by
  rw [forgetSource]
  by_cases hd : v.drivenBy? old.source = some old
  · rw [if_pos hd]
    dsimp only
    by_cases hs : old.source = e
    · subst hs
      rw [if_pos ⟨rfl, hd⟩]
      split
      · next other hfind => rw [hfind]; simp [drivenBy?]
      · next hfind => rw [hfind]; simp [drivenBy?]
    · have hne : ¬ old.source.key = e.key := fun h => hs (Socket.key_inj.mp h)
      rw [if_neg (fun h => hs h.1)]
      split
      · simp [drivenBy?, ExtTreeMap.getElem?_insert, ExtTreeMap.getElem?_erase, hne]
      · simp [drivenBy?, ExtTreeMap.getElem?_erase, hne]
  · rw [if_neg hd, if_neg]
    rintro ⟨rfl, h⟩
    exact hd h

/-- **The mending step.**  Let `v` be `w` with the link `old` taken out, as far as the links from `e` can
    tell, and with the sources of `w`.  Then mending `v` for `old` keeps track of `e`. -/
theorem tracks_forgetSource {last : Link → Prop} (hw : w.Keyed) (hv : v.Keyed)
    (hsource : v.bySource = w.bySource)
    (hlive : ∀ l, l.source = e → (v.Live l ↔ w.Live l ∧ l ≠ old))
    (hlast : ∀ l, last l → l.source = e) (h : w.Tracks last e) :
    (v.forgetSource old).Tracks last e := by
  have hfirst : ∀ l, (v.forgetSource old).IsFirst e l ↔ v.IsFirst e l := fun l => by
    simp only [IsFirst, live_forgetSource]
  have hdriven : v.drivenBy? e = w.drivenBy? e := by rw [drivenBy?, drivenBy?, hsource]
  refine ⟨fun l hl hllive => ?_, fun hdead l => ?_⟩
  · -- the named link is still live, so it is not `old`, and nothing is mended at `e`
    rw [live_forgetSource, hlive l (hlast l hl)] at hllive
    have hknown := h.of_live l hl hllive.1
    rw [drivenBy?_forgetSource, hdriven, hknown, if_neg]
    exact fun hif => hllive.2 (Option.some.inj hif.2)
  · rw [hfirst, drivenBy?_forgetSource, hdriven]
    split
    · -- `e` was known by `old`: the first of the links that are left takes its place
      next hif =>
      have hmatch : ∀ o, v.Live o →
          (decide (o.source = old.source ∧ o ≠ old) = true ↔ o.source = e) := by
        intro o ho
        rw [decide_eq_true_iff, hif.1]
        exact ⟨fun h => h.1, fun h => ⟨h, ((hlive o h).mp ho).2⟩⟩
      constructor
      · exact isFirst_of_find? hv hmatch
      · intro hl
        cases hfind : v.links.find? fun other => other.source = old.source ∧ other ≠ old with
        | none =>
          have hno := List.find?_eq_none.mp hfind l ((mem_links_iff hv).mpr hl.1)
          exact absurd ((hmatch l hl.1).mpr hl.2.1) hno
        | some l' => rw [(isFirst_of_find? hv hmatch hfind).unique hl]
    · -- `e` was known by another link, so the named link was dead before
      next hif =>
      have hdead' : ∀ l, last l → ¬ w.Live l := by
        intro l' hl' hlive'
        have hknown := h.of_live l' hl' hlive'
        have heq : l' = old := by
          by_contra hne
          exact hdead l' hl' (live_forgetSource.mpr ((hlive l' (hlast l' hl')).mpr ⟨hlive', hne⟩))
        exact hif ⟨heq ▸ hlast l' hl', heq ▸ hknown⟩
      have hnot : ¬ w.IsFirst e old := fun hf =>
        hif ⟨hf.2.1, (h.of_dead hdead' old).mpr hf⟩
      rw [h.of_dead hdead' l]
      have hkeep : ∀ m, w.IsFirst e m → v.IsFirst e m := fun m hm =>
        ⟨(hlive m hm.2.1).mpr ⟨hm.1, fun heq => hnot (heq ▸ hm)⟩, hm.2.1,
          fun l' hl' hs => hm.2.2 l' ((hlive l' hs).mp hl').1 hs⟩
      refine ⟨hkeep l, fun hl => ?_⟩
      obtain ⟨m, hm⟩ := exists_isFirst hw ((hlive l hl.2.1).mp hl.1).1 hl.2.1
      rw [hl.unique (hkeep m hm)]
      exact hm

/-- Taking out what feeds a target keeps track of every output. -/
theorem Tracks.removeInto {last : Link → Prop} (h : w.Tracks last e) (hw : w.Keyed)
    (hlast : ∀ l, last l → l.source = e) (t : Socket) : (w.removeInto t).Tracks last e := by
  cases hf : w.feeding? t with
  | none => rwa [removeInto_of_none hf]
  | some old =>
    have hclear := feeding?_erase w.byTarget w.bySource t
    rw [removeInto_of_some hf]
    refine tracks_forgetSource hw (hw.of_clear hclear) rfl (fun l _ => ?_) hlast h
    refine (live_of_clear hclear).trans (and_congr_right fun hl => not_congr ?_)
    have htarget : old.target = t := hw t old hf
    exact ⟨fun ht => hl.unique (hw.live hf) (ht.trans htarget.symm), fun heq => heq ▸ htarget⟩

/-- Removing a node keeps track of every output. -/
theorem Tracks.removeNode {last : Link → Prop} (h : w.Tracks last e) (hw : w.Keyed)
    (hlast : ∀ l, last l → l.source = e) (id : NodeId) : (w.removeNode id).Tracks last e := by
  have hclear : ∀ (ls : List Link) (w : Wiring), w.Keyed → w.Tracks last e →
      (ls.foldl (fun w l => w.removeInto l.target) w).Tracks last e := by
    intro ls
    induction ls with
    | nil => exact fun _ _ h => h
    | cons l ls ih =>
      exact fun w hw h => ih _ (hw.removeInto l.target) (h.removeInto hw hlast l.target)
  exact hclear _ w hw h

/-- Tracking `e` reads the links from `e` and what it is known by, and nothing else. -/
theorem Tracks.congr {last : Link → Prop} (h : w.Tracks last e)
    (hlast : ∀ l, last l → l.source = e) (hlive : ∀ l, l.source = e → (v.Live l ↔ w.Live l))
    (hdriven : v.drivenBy? e = w.drivenBy? e) : v.Tracks last e := by
  refine ⟨fun l hl hv => ?_, fun hdead l => ?_⟩
  · rw [hdriven]
    exact h.of_live l hl ((hlive l (hlast l hl)).mp hv)
  · rw [hdriven, h.of_dead (fun l hl hw => hdead l hl ((hlive l (hlast l hl)).mpr hw))]
    constructor
    · rintro ⟨hl, hs, hle⟩
      exact ⟨(hlive l hs).mpr hl, hs, fun l' hl' hs' => hle l' ((hlive l' hs').mp hl') hs'⟩
    · rintro ⟨hl, hs, hle⟩
      exact ⟨(hlive l hs).mp hl, hs, fun l' hl' hs' => hle l' ((hlive l' hs').mpr hl') hs'⟩

/-- The output of a new link is known by it. -/
theorem drivenBy?_insert_self (w : Wiring) (l : Link) :
    (w.insert l).drivenBy? l.source = some l := by
  rw [insert_eq, drivenBy?]
  exact ExtTreeMap.getElem?_insert_self

/-- Any other output is known by what it was known by once the displaced link is forgotten. -/
theorem drivenBy?_insert_of_ne (hne : l.source ≠ e) :
    (w.insert l).drivenBy? e =
      match w.feeding? l.target with
      | some old => (forgetSource ⟨w.byTarget.insert l.target.key l, w.bySource⟩ old).drivenBy? e
      | none => w.drivenBy? e := by
  have hkey : ¬ l.source.key = e.key := fun hk => hne (Socket.key_inj.mp hk)
  rw [insert_eq, drivenBy?, ExtTreeMap.getElem?_insert, if_neg (by simpa using hkey)]
  cases w.feeding? l.target <;> rfl

theorem tracks_insert_self (w : Wiring) (l : Link) : (w.insert l).Tracks (· = l) l.source := by
  refine ⟨fun l' hl' _ => ?_, fun hdead => ?_⟩
  · subst hl'
    exact drivenBy?_insert_self w l'
  · exact absurd (live_insert.mpr (Or.inl rfl)) (hdead l rfl)

/-- A new link keeps track of every output but its own. -/
theorem Tracks.insert {last : Link → Prop} (h : w.Tracks last e) (hw : w.Keyed)
    (hlast : ∀ l, last l → l.source = e) (hne : l.source ≠ e) : (w.insert l).Tracks last e := by
  have hother : ∀ l', l'.source = e → l' ≠ l := fun l' hs heq => hne (heq ▸ hs)
  have hdriven := drivenBy?_insert_of_ne (w := w) hne
  cases hf : w.feeding? l.target with
  | none =>
    rw [hf] at hdriven
    refine h.congr hlast (fun l' hs => ?_) hdriven
    rw [live_insert, or_iff_right (hother l' hs)]
    refine and_iff_left_of_imp fun hl' ht => ?_
    rw [Live, ht, hf] at hl'
    simp at hl'
  | some old =>
    rw [hf] at hdriven
    have hplace := feeding?_place w.byTarget w.bySource l
    have htarget : old.target = l.target := hw l.target old hf
    have hmended : (forgetSource ⟨w.byTarget.insert l.target.key l, w.bySource⟩ old).Tracks last e := by
      refine tracks_forgetSource hw (hw.of_place hplace) rfl (fun l' hs => ?_) hlast h
      refine (live_of_place hplace).trans ?_
      rw [or_iff_right (hother l' hs)]
      refine and_congr_right fun hl' => not_congr ?_
      exact ⟨fun ht => hl'.unique (hw.live hf) (ht.trans htarget.symm), fun heq => heq ▸ htarget⟩
    refine hmended.congr hlast (fun l' hs => ?_) hdriven
    exact live_insert.trans ((live_of_place hplace).symm.trans live_forgetSource.symm)

end Wiring

end FragmentGraph
