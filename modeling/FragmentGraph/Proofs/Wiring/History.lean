/-
  What a wiring remembers of its history.

  A wiring is the result of a history of changes.  Nothing is asked of the changes: sockets may be any,
  links may be made twice, and what is removed need not be there.  The history alone tells what the
  wiring answers:

  * an input is fed by the link made last with that target, unless a later change took it out
    (`Standing`);
  * an output is known by the link made last with that source (`LastFrom`) while it is live, and else by
    the first of its live links;
  * a change gives back what was there before it.

  Both laws are inductions on the history from its end.  The first needs only what one change does to
  the live links; the second is `Tracks`, kept by every change, read for `LastFrom`.
-/
import FragmentGraph.Proofs.Wiring.Live
import Mathlib.Data.List.Induction

namespace FragmentGraph

/-! ## Histories -/

/-- A change of a wiring. -/
inductive Change where
  | insert (l : Link)
  | removeInto (target : Socket)
  | removeNode (id : NodeId)

namespace Change

/-- The wiring after the change. -/
def apply (w : Wiring) : Change → Wiring
  | insert l => w.insert l
  | removeInto target => w.removeInto target
  | removeNode id => w.removeNode id

/-- The change takes the link out if it is live: its target gets a link, or is cleared, or one of its
    nodes goes. -/
def Ends (l : Link) : Change → Prop
  | insert l' => l'.target = l.target
  | removeInto target => target = l.target
  | removeNode id => l.source.node = id ∨ l.target.node = id

end Change

/-- The wiring after a history that began with no links. -/
def Wiring.replay (history : List Change) : Wiring := history.foldl Change.apply Wiring.empty

/-- `Standing history l` — the link was made, and no later change took it out. -/
def Standing (history : List Change) (l : Link) : Prop :=
  ∃ before later, history = before ++ .insert l :: later ∧ ∀ change ∈ later, ¬ change.Ends l

/-- `LastFrom history e l` — of the links made from `e`, the link `l` was made last. -/
def LastFrom (history : List Change) (e : Socket) (l : Link) : Prop :=
  l.source = e ∧ ∃ before later, history = before ++ .insert l :: later ∧
    ∀ l', .insert l' ∈ later → l'.source ≠ e

variable {history : List Change} {change : Change} {l : Link} {e : Socket}

/-- A change of a longer history is its last one or stands in what came before. -/
theorem concat_eq_append_cons {made : Change} {before later : List Change} :
    history ++ [change] = before ++ made :: later ↔
      (later = [] ∧ before = history ∧ made = change) ∨
      ∃ rest, later = rest ++ [change] ∧ history = before ++ made :: rest := by
  constructor
  · intro h
    rcases List.eq_nil_or_concat later with rfl | ⟨rest, final, rfl⟩
    · obtain ⟨rfl, hmade⟩ := List.append_inj' h rfl
      exact Or.inl ⟨rfl, rfl, by simpa using hmade.symm⟩
    · rw [List.concat_eq_append] at h ⊢
      have hsplit : history ++ [change] = (before ++ made :: rest) ++ [final] := by simpa using h
      obtain ⟨rfl, hfinal⟩ := List.append_inj' hsplit rfl
      obtain rfl : change = final := by simpa using hfinal
      exact Or.inr ⟨rest, rfl, rfl⟩
  · rintro (⟨rfl, rfl, rfl⟩ | ⟨rest, rfl, rfl⟩)
    · rfl
    · simp

/-- A link stands after one more change if that made it, or if it stood and the change let it stand. -/
theorem standing_concat :
    Standing (history ++ [change]) l ↔
      change = .insert l ∨ (Standing history l ∧ ¬ change.Ends l) := by
  constructor
  · rintro ⟨before, later, hsplit, hlater⟩
    rcases concat_eq_append_cons.mp hsplit with ⟨_, _, hmade⟩ | ⟨rest, rfl, hrest⟩
    · exact Or.inl hmade.symm
    · exact Or.inr ⟨⟨before, rest, hrest, fun c hc => hlater c (List.mem_append_left _ hc)⟩,
        hlater change (by simp)⟩
  · rintro (rfl | ⟨⟨before, rest, rfl, hrest⟩, hends⟩)
    · exact ⟨history, [], rfl, fun c hc => absurd hc List.not_mem_nil⟩
    · refine ⟨before, rest ++ [change], by simp, fun c hc => ?_⟩
      rcases List.mem_append.mp hc with hc | hc
      · exact hrest c hc
      · rw [List.mem_singleton.mp hc]
        exact hends

/-- One more change makes the last link from `e`, or leaves it as it was. -/
theorem lastFrom_concat :
    LastFrom (history ++ [change]) e l ↔
      (change = .insert l ∧ l.source = e) ∨
      (LastFrom history e l ∧ ∀ l', change = .insert l' → l'.source ≠ e) := by
  constructor
  · rintro ⟨hs, before, later, hsplit, hlater⟩
    rcases concat_eq_append_cons.mp hsplit with ⟨_, _, hmade⟩ | ⟨rest, rfl, hrest⟩
    · exact Or.inl ⟨hmade.symm, hs⟩
    · refine Or.inr ⟨⟨hs, before, rest, hrest, fun l' hl' => ?_⟩, fun l' hl' => ?_⟩
      · exact hlater l' (List.mem_append_left _ hl')
      · exact hlater l' (by simp [hl'])
  · rintro (⟨rfl, hs⟩ | ⟨⟨hs, before, rest, rfl, hrest⟩, hchange⟩)
    · exact ⟨hs, history, [], rfl, fun l' hl' => absurd hl' List.not_mem_nil⟩
    · refine ⟨hs, before, rest ++ [change], by simp, fun l' hl' => ?_⟩
      rcases List.mem_append.mp hl' with hl' | hl'
      · exact hrest l' hl'
      · exact hchange l' (List.mem_singleton.mp hl').symm

/-- Only one link was made last. -/
theorem LastFrom.unique {l' : Link} (h : LastFrom history e l) (h' : LastFrom history e l') :
    l = l' := by
  induction history using List.reverseRecOn with
  | nil =>
    obtain ⟨_, before, later, hsplit, _⟩ := h
    exact absurd hsplit (by simp)
  | append_singleton history change ih =>
    rcases lastFrom_concat.mp h with ⟨hmade, hs⟩ | ⟨hold, hne⟩ <;>
      rcases lastFrom_concat.mp h' with ⟨hmade', hs'⟩ | ⟨hold', hne'⟩
    · exact Change.insert.inj (hmade.symm.trans hmade')
    · exact absurd hs (hne' l hmade)
    · exact absurd hs' (hne l' hmade')
    · exact ih hold hold'

namespace Wiring

theorem replay_concat (history : List Change) (change : Change) :
    replay (history ++ [change]) = change.apply (replay history) := by
  rw [replay, List.foldl_append]
  rfl

/-! ## What feeds an input -/

theorem keyed_apply {w : Wiring} (hw : w.Keyed) (change : Change) : (change.apply w).Keyed := by
  cases change with
  | insert l => exact hw.insert l
  | removeInto t => exact hw.removeInto t
  | removeNode id => exact hw.removeNode id

/-- Every wiring with a history stores its links under their own targets. -/
theorem keyed_replay (history : List Change) : (replay history).Keyed := by
  induction history using List.reverseRecOn with
  | nil => intro t l h; simp [replay, empty, feeding?] at h
  | append_singleton history change ih =>
    rw [replay_concat]
    exact keyed_apply ih change

/-- The wiring comes from one without links by changes. -/
def HasHistory (w : Wiring) : Prop := ∃ history, w = replay history

theorem HasHistory.keyed {w : Wiring} (h : w.HasHistory) : w.Keyed := by
  obtain ⟨history, rfl⟩ := h
  exact keyed_replay history

/-- Every change adds to the history. -/
theorem HasHistory.apply {w : Wiring} (h : w.HasHistory) (change : Change) :
    (change.apply w).HasHistory := by
  obtain ⟨history, rfl⟩ := h
  exact ⟨history ++ [change], (replay_concat history change).symm⟩

/-- A link is live after a change if that made it, or if it was live and the change let it be. -/
theorem live_apply {w : Wiring} (hw : w.Keyed) :
    (change.apply w).Live l ↔ change = .insert l ∨ (w.Live l ∧ ¬ change.Ends l) := by
  cases change with
  | insert l' =>
    show (w.insert l').Live l ↔ _
    rw [live_insert, Change.insert.injEq, Change.Ends]
    exact or_congr eq_comm (and_congr_right fun _ => not_congr eq_comm)
  | removeInto t =>
    refine live_removeInto.trans (Iff.trans ?_ (or_iff_right (by simp)).symm)
    exact and_congr_right fun _ => not_congr eq_comm
  | removeNode id => exact (live_removeNode hw).trans (or_iff_right (by simp)).symm

/-- The live links are those that the history lets stand. -/
theorem live_replay_iff : (replay history).Live l ↔ Standing history l := by
  induction history using List.reverseRecOn with
  | nil =>
    constructor
    · intro h
      simp [Live, replay, empty, feeding?] at h
    · rintro ⟨before, later, h, _⟩
      simp at h
  | append_singleton history change ih =>
    rw [replay_concat, live_apply (keyed_replay history), standing_concat, ih]

/-! ## What an output is known by -/

/-- Every change keeps track of an output, by the last link made from it. -/
theorem tracks_replay (history : List Change) (e : Socket) :
    (replay history).Tracks (LastFrom history e) e := by
  induction history using List.reverseRecOn with
  | nil =>
    have hlive : ∀ l, ¬ (replay []).Live l := fun l h => by
      simp [Live, replay, empty, feeding?] at h
    refine ⟨fun l _ h => absurd h (hlive l), fun _ l => ?_⟩
    exact ⟨fun h => by simp [replay, empty, drivenBy?] at h, fun h => absurd h.1 (hlive l)⟩
  | append_singleton history change ih =>
    have hw := keyed_replay history
    have hlast : ∀ l, LastFrom history e l → l.source = e := fun _ h => h.1
    rw [replay_concat]
    -- either the change makes a link from `e`, which is then the last one, or the last one stays
    by_cases hmade : ∃ l, change = .insert l ∧ l.source = e
    · obtain ⟨l, rfl, rfl⟩ := hmade
      have hiff : LastFrom (history ++ [.insert l]) l.source = (· = l) := by
        funext l'
        rw [lastFrom_concat]
        simp only [Change.insert.injEq, eq_iff_iff]
        constructor
        · rintro (⟨h, _⟩ | ⟨_, h⟩)
          · exact h.symm
          · exact absurd rfl (h l rfl)
        · rintro rfl
          exact Or.inl ⟨rfl, rfl⟩
      rw [hiff]
      exact tracks_insert_self _ l
    · have hother : ∀ l, change = .insert l → l.source ≠ e := fun l h hs => hmade ⟨l, h, hs⟩
      have hiff : LastFrom (history ++ [change]) e = LastFrom history e := by
        funext l
        rw [lastFrom_concat, eq_iff_iff]
        constructor
        · rintro (h | h)
          · exact absurd ⟨l, h⟩ hmade
          · exact h.1
        · exact fun h => Or.inr ⟨h, hother⟩
      rw [hiff]
      cases change with
      | insert l => exact ih.insert hw hlast (hother l rfl)
      | removeInto t => exact ih.removeInto hw hlast t
      | removeNode id => exact ih.removeNode hw hlast id

/-- **A wiring answers from its history.**  For every history of changes: an input is fed by the link that
    stands with its target; an output is known by the last link made from it while that is live, else by
    the first of its live links, and by none exactly when it has none; a change gives back what fed the
    target before, or the live links of the node in the order of their targets.  So every link kept by
    source is live and kept under its own source, and there is one exactly for the outputs that feed an
    input. -/
theorem replay_answers (history : List Change) :
    let w := replay history
    (∀ t l, w.feeding? t = some l ↔ l.target = t ∧ Standing history l) ∧
    (∀ e last, LastFrom history e last →
      (w.Live last → w.drivenBy? e = some last) ∧
      (¬ w.Live last → ∀ l, w.drivenBy? e = some l ↔ w.IsFirst e l)) ∧
    (∀ e, w.drivenBy? e = none ↔ ∀ l, w.Live l → l.source ≠ e) ∧
    (∀ l, (w.exchange l).1 = w.feeding? l.target) ∧
    (∀ t, (w.extract t).1 = w.feeding? t) ∧
    (∀ id, (∀ l, l ∈ (w.extractNode id).1 ↔
        w.Live l ∧ (l.source.node = id ∨ l.target.node = id)) ∧
      (w.extractNode id).1.Pairwise fun a b => a.target.compare b.target = .lt) ∧
    (∀ k l, w.bySource[k]? = some l → l.source.key = k ∧ w.Live l) := by
  intro w
  have hw : w.Keyed := keyed_replay history
  have htracks := tracks_replay history
  refine ⟨fun t l => ?_, fun e last hlast => ⟨(htracks e).of_live last hlast, fun hdead => ?_⟩,
    fun e => (htracks e).eq_none_iff hw (fun _ h => h.1), exchange_fst w, extract_fst w,
    fun id => ⟨fun l => mem_extractNode_iff hw, extractNode_sorted hw id⟩, fun k l hk => ?_⟩
  · constructor
    · intro h
      exact ⟨hw t l h, live_replay_iff.mp (hw.live h)⟩
    · rintro ⟨rfl, hstands⟩
      exact live_replay_iff.mpr hstands
  · refine (htracks e).of_dead fun l hl => ?_
    rw [hl.unique hlast]
    exact hdead
  · obtain ⟨e, rfl⟩ := SocketKey.exists_socket k
    obtain ⟨hlive, hs⟩ := (htracks e).live (fun _ h => h.1) hk
    exact ⟨by rw [hs], hlive⟩

/-- One output feeds three inputs; the input it fed last is cleared. -/
def fanOutCleared : List Change :=
  [.insert ⟨⟨1, 0⟩, ⟨3, 0⟩⟩, .insert ⟨⟨1, 0⟩, ⟨2, 1⟩⟩, .insert ⟨⟨1, 0⟩, ⟨2, 0⟩⟩, .removeInto ⟨2, 0⟩]

theorem lastFrom_fanOutCleared : LastFrom fanOutCleared ⟨1, 0⟩ ⟨⟨1, 0⟩, ⟨2, 0⟩⟩ :=
  ⟨rfl, [.insert ⟨⟨1, 0⟩, ⟨3, 0⟩⟩, .insert ⟨⟨1, 0⟩, ⟨2, 1⟩⟩], [.removeInto ⟨2, 0⟩], rfl, by simp⟩

/-- The output was last linked to the cleared input, so the first of the two other links takes its
    place. -/
theorem replay_answers_fanOutCleared :
    LastFrom fanOutCleared ⟨1, 0⟩ ⟨⟨1, 0⟩, ⟨2, 0⟩⟩ ∧
    ¬ (replay fanOutCleared).Live ⟨⟨1, 0⟩, ⟨2, 0⟩⟩ ∧
    (replay fanOutCleared).IsFirst ⟨1, 0⟩ ⟨⟨1, 0⟩, ⟨2, 1⟩⟩ := by
  have hdead : ¬ (replay fanOutCleared).Live ⟨⟨1, 0⟩, ⟨2, 0⟩⟩ := by
    show ¬ _ = some _
    decide
  obtain ⟨_, hsource, _⟩ := replay_answers fanOutCleared
  refine ⟨lastFrom_fanOutCleared, hdead, ?_⟩
  refine ((hsource ⟨1, 0⟩ _ lastFrom_fanOutCleared).2 hdead _).mp ?_
  decide

end Wiring

end FragmentGraph
