import SigningGateway.Proofs.Scheduler.Single

/-!
# The updates of a launch

Each of the updates that a launch makes when the launcher is done with it keeps the invariant,
whatever has happened since the one before.

    Single s → Single (s.update launch r)                                        (single_update)
-/

namespace SigningGateway

namespace SchedulerRun

/-- A launch that has recorded its assignment is uncleared, as are those that were before. -/
theorem Moves.uncleared_recorded {s s' : SchedulerRun} {launch : Nat} {node : NodeId}
    {a : Assignment}
    (hm : s.Moves s' launch node (.returned (.recording a)) (.returned (.watching a)))
    (hwatched : s'.scheduler.watched = s.scheduler.watched) (other : Nat) (a' : Assignment) :
    s'.Uncleared other a' ↔ (other = launch ∧ a' = a) ∨ s.Uncleared other a' := by
  by_cases hother : other = launch
  · subst hother
    rw [Uncleared, Uncleared, hwatched]
    constructor
    · rintro (⟨node', heq⟩ | hwatched')
      · have hstage := Standing.returned.inj (standing_inj hm.after heq).2
        exact Or.inl ⟨rfl, Stage.watching.inj hstage⟩
      · exact Or.inr (Or.inr hwatched')
    · rintro (⟨-, rfl⟩ | ⟨node', heq⟩ | hwatched')
      · exact Or.inl ⟨node, hm.after⟩
      · cases (standing_inj hm.before heq).2
      · exact Or.inr hwatched'
  · rw [hm.uncleared_other other (by rw [hwatched]) hother a']
    exact ⟨Or.inr, fun hcase => hcase.resolve_left fun hsame => hother hsame.1⟩

section
variable {s : SchedulerRun} (h : s.Single) (launch : Nat) (r : Returned)
  (hr : s.returned.get? launch = some r)
include h hr

/-- A launch that records its assignment is the only one of its node, and the registry has none. -/
theorem single_recording (a : Assignment) (hstage : r.stage = .recording a) :
    (s.update launch r).Single := by
  obtain ⟨deadline, hstarting⟩ := h.starting hr
  have hbefore := h.returned launch r hr
  rw [hstage] at hbefore
  have hnode : a.node = r.node := h.fits launch r.node _ a hbefore rfl
  have hvacant : s.scheduler.registry.get? a.node = none :=
    hnode ▸ h.vacant launch r.node ⟨_, hbefore, rfl⟩
  have hupdate : s.update launch r =
      { s with
        scheduler := s.scheduler.record a
        returned := s.returned.set launch ⟨r.node, .watching a⟩
        recorded := s.recorded ++ [(launch, a)] } := by
    simp only [update, hstage]
  rw [hupdate]
  have hm : s.Moves { s with
      scheduler := s.scheduler.record a
      returned := s.returned.set launch ⟨r.node, .watching a⟩
      recorded := s.recorded ++ [(launch, a)] } launch r.node (.returned (.recording a))
        (.returned (.watching a)) := moves_stage (.watching a) hbefore hstarting rfl rfl
  have hget := Registry.get?_record s.scheduler.registry a
  have hlast := lastRecorded_append s.recorded (launch, a)
  -- an assignment that is uncleared from before is one of another node
  have hold : ∀ other a', s.Uncleared other a' → a'.node ≠ a.node := by
    intro other a' huncleared hsame
    have hregistry := (h.current other a' huncleared).1
    rw [hsame, hvacant] at hregistry
    cases hregistry
  have huncleared := hm.uncleared_recorded rfl
  refine ⟨hm.numbers h, h.returned_stage hm rfl, hm.fits h ?_, ?_, ?_, hm.watched h ?_, ?_, ?_, ?_,
    ?_⟩
  · intro a' ha'
    rw [← Option.some.inj ha']
    exact hnode
  · intro node other
    rw [hm.holds_iff rfl]
    exact h.inFlight node other
  · intro other node hunrecorded
    have hbefore' := hm.unrecorded (fun _ => rfl) other node hunrecorded
    have hother : node ≠ a.node := by
      intro hsame
      rw [hnode] at hsame
      subst hsame
      obtain rfl := h.holds_inj hbefore'.holds ⟨_, hbefore, rfl⟩
      obtain ⟨st, hst, hst'⟩ := hunrecorded
      rw [(standing_inj hm.after hst).2] at hst'
      cases hst'
    exact (hget node).trans ((if_neg hother).trans (h.vacant other node hbefore'))
  · intro hpast
    cases hpast
  · intro other a' ha'
    rcases (huncleared other a').1 ha' with ⟨rfl, rfl⟩ | ha'
    · exact ⟨(hget _).trans (if_pos rfl), (hlast _).trans (if_pos rfl)⟩
    · obtain ⟨hregistry, hrecorded⟩ := h.current other a' ha'
      have hne := hold other a' ha'
      exact ⟨(hget _).trans ((if_neg hne).trans hregistry),
        (hlast _).trans ((if_neg hne).trans hrecorded)⟩
  · intro node a' ha'
    have ha'' := (hget node).symm.trans ha'
    show ∃ other, lastRecorded (s.recorded ++ [(launch, a)]) node = some (other, a') ∧ _
    rw [hlast]
    split at ha''
    · next hsame =>
      obtain rfl := Option.some.inj ha''
      exact ⟨launch, if_pos hsame, (huncleared launch a).2 (Or.inl ⟨rfl, rfl⟩)⟩
    · next hne =>
      obtain ⟨other, hrecorded, hother⟩ := h.registered node a' ha''
      rw [if_neg hne]
      exact ⟨other, hrecorded, (huncleared other a').2 (Or.inr hother)⟩
  · intro node e he hnone
    have hnone' := (hget node).symm.trans hnone
    have he' := (hlast node).symm.trans he
    split at hnone'
    · cases hnone'
    · next hne =>
      rw [if_neg hne] at he'
      exact h.cleared node e he' hnone'
  · intro e he
    show e.1 ∈ s.reported ∨ lastRecorded (s.recorded ++ [(launch, a)]) e.2.node = some e
    rw [hlast]
    rcases List.mem_append.1 he with he | he
    · rcases h.earlier e he with hreported | hrecorded
      · exact Or.inl hreported
      · by_cases hsame : e.2.node = a.node
        · exact Or.inl (h.cleared e.2.node e hrecorded (hsame ▸ hvacant))
        · rw [if_neg hsame]
          exact Or.inr hrecorded
    · obtain rfl := List.mem_singleton.1 he
      exact Or.inr (if_pos rfl)

/-- A launch that awaits the end of its process keeps its assignment uncleared. -/
theorem single_watching (a : Assignment) (hstage : r.stage = .watching a) :
    (s.update launch r).Single := by
  obtain ⟨deadline, hstarting⟩ := h.starting hr
  have hbefore := h.returned launch r hr
  rw [hstage] at hbefore
  have hupdate : s.update launch r =
      { s with
        scheduler := s.scheduler.watch launch a
        returned := s.returned.set launch ⟨r.node, .leaving (.ok a)⟩ } := by
    simp only [update, hstage]
  rw [hupdate]
  have hm : s.Moves { s with
      scheduler := s.scheduler.watch launch a
      returned := s.returned.set launch ⟨r.node, .leaving (.ok a)⟩ } launch r.node
        (.returned (.watching a)) (.returned (.leaving (.ok a))) :=
    moves_stage (.leaving (.ok a)) hbefore hstarting rfl rfl
  have hunwatched := h.not_watched hbefore rfl
  have hget : ∀ other, (s.scheduler.watched.set launch a).get? other =
      if other = launch then some a else s.scheduler.watched.get? other :=
    fun other => Table.get?_set _ _ _ _
  have huncleared : ∀ other a', ({ s with
      scheduler := s.scheduler.watch launch a
      returned := s.returned.set launch ⟨r.node, .leaving (.ok a)⟩ } : SchedulerRun).Uncleared
        other a' ↔ s.Uncleared other a' := by
    intro other a'
    by_cases hother : other = launch
    · subst hother
      constructor
      · rintro (⟨node', heq⟩ | hwatched)
        · cases (standing_inj hm.after heq).2
        · have heq := ((hget other).symm.trans hwatched).symm.trans (if_pos rfl)
          rw [Option.some.inj heq]
          exact Or.inl ⟨r.node, hbefore⟩
      · rintro (⟨node', heq⟩ | hwatched)
        · rw [Stage.watching.inj (Standing.returned.inj (standing_inj hbefore heq).2)]
          exact Or.inr ((hget other).trans (if_pos rfl))
        · rw [hunwatched] at hwatched
          cases hwatched
    · exact hm.uncleared_other other ((hget other).trans (if_neg hother)) hother a'
  obtain ⟨hcurrent, hregistered, hcleared, hearlier⟩ :=
    h.assigned _ huncleared rfl rfl fun _ hmem => hmem
  refine ⟨hm.numbers h, h.returned_stage hm rfl, hm.fits h ?_, ?_, ?_, ?_, hcurrent, hregistered,
    hcleared, hearlier⟩
  · intro a' ha'
    cases ha'
  · intro node other
    rw [hm.holds_iff rfl]
    exact h.inFlight node other
  · intro other node hunrecorded
    exact h.vacant other node (hm.unrecorded (by intro hcase; cases hcase) other node hunrecorded)
  · intro other a' ha'
    by_cases hother : other = launch
    · subst hother
      exact ⟨r.node, _, hm.after, rfl⟩
    · apply hm.watched h (by intro hpast; cases hpast) other a'
      exact ((hget other).trans (if_neg hother)).symm.trans ha'

/-- A launch whose failure is counted stays in flight. -/
theorem single_counting (cause : Error) (hstage : r.stage = .counting cause) :
    (s.update launch r).Single := by
  obtain ⟨deadline, hstarting⟩ := h.starting hr
  have hbefore := h.returned launch r hr
  rw [hstage] at hbefore
  have hupdate : s.update launch r =
      { s with
        scheduler := s.scheduler.countFailure
        returned := s.returned.set launch ⟨r.node, .leaving (.error cause)⟩ } := by
    simp only [update, hstage]
  rw [hupdate]
  apply h.stage _ (.leaving (.error cause)) hbefore hstarting
  · rfl
  · rfl
  · rfl
  · exact ⟨rfl, rfl, rfl, rfl, rfl⟩
  · rfl
  · intro a ha
    cases ha
  · exact fun _ => rfl
  · intro hpast
    cases hpast
  · exact ⟨rfl, rfl⟩

/-- A launch that leaves the launches in flight makes room for another one of its node. -/
theorem single_leaving (result : Except Error Assignment) (hstage : r.stage = .leaving result) :
    (s.update launch r).Single := by
  obtain ⟨deadline, hstarting⟩ := h.starting hr
  have hbefore := h.returned launch r hr
  rw [hstage] at hbefore
  have hholds : s.Holds launch r.node := ⟨_, hbefore, rfl⟩
  have hupdate : s.update launch r =
      { s with
        scheduler := s.scheduler.leave r.node
        returned := s.returned.set launch ⟨r.node, .closing result⟩ } := by
    simp only [update, hstage]
  rw [hupdate]
  have hm : s.Moves { s with
      scheduler := s.scheduler.leave r.node
      returned := s.returned.set launch ⟨r.node, .closing result⟩ } launch r.node
        (.returned (.leaving result)) (.returned (.closing result)) :=
    moves_stage (.closing result) hbefore hstarting rfl rfl
  apply h.move hm ⟨rfl, rfl, rfl, rfl, rfl⟩ (h.returned_stage hm rfl)
  · intro node other
    show (s.scheduler.inFlight.erase r.node).get? node = some other ↔ _
    rw [Table.get?_erase]
    constructor
    · intro hget
      split at hget
      · cases hget
      · next hnode =>
        obtain ⟨st, hst, hst'⟩ := (h.inFlight node other).1 hget
        refine ⟨st, ?_, hst'⟩
        rw [hm.others other, hst]
        rintro rfl
        exact hnode (standing_inj hbefore hst).1
    · rintro ⟨st, hst, hst'⟩
      by_cases hother : other = launch
      · subst hother
        rw [(standing_inj hm.after hst).2] at hst'
        cases hst'
      · rw [hm.others other hother] at hst
        rw [if_neg]
        · exact (h.inFlight node other).2 ⟨st, hst, hst'⟩
        · rintro rfl
          exact hother (h.holds_inj ⟨st, hst, hst'⟩ hholds)
  · intro a ha
    cases ha
  · intro hcase
    cases hcase
  · exact fun _ => rfl
  · exact ⟨rfl, rfl⟩

/-- A launch that lays its result down is at its end. -/
theorem single_closing (result : Except Error Assignment) (hstage : r.stage = .closing result) :
    (s.update launch r).Single := by
  have hbefore := h.returned launch r hr
  rw [hstage] at hbefore
  have hupdate : s.update launch r =
      { s with
        scheduler := s.scheduler.close launch r.node result
        returned := s.returned.erase launch } := by
    simp only [update, hstage]
  rw [hupdate]
  have hm : s.Moves { s with
      scheduler := s.scheduler.close launch r.node result
      returned := s.returned.erase launch } launch r.node (.returned (.closing result)) .ended := by
    refine ⟨⟨?_, ?_⟩, hbefore⟩
    · have hended : (s.scheduler.launches.set launch ⟨r.node, .ended result⟩).get? launch =
          some ⟨r.node, .ended result⟩ := (Table.get?_set _ _ _ _).trans (if_pos rfl)
      simp only [standing, Scheduler.close, hended]
    · intro other hother
      apply standing_congr
      · exact (Table.get?_set _ _ _ _).trans (if_neg hother)
      · exact (Table.get?_erase _ _ _).trans (if_neg hother)
  apply h.move hm ⟨rfl, rfl, rfl, rfl, rfl⟩
  · intro other r' hr'
    have hget := (Table.get?_erase s.returned launch other).symm.trans hr'
    split at hget
    · cases hget
    · next hother =>
      rw [hm.others other hother]
      exact h.returned other r' hget
  · intro node other
    rw [hm.holds_iff rfl]
    exact h.inFlight node other
  · intro a ha
    cases ha
  · intro hcase
    cases hcase
  · exact fun _ => rfl
  · exact ⟨rfl, rfl⟩

theorem single_update : (s.update launch r).Single := by
  cases hstage : r.stage with
  | recording a => exact single_recording h launch r hr a hstage
  | watching a => exact single_watching h launch r hr a hstage
  | counting cause => exact single_counting h launch r hr cause hstage
  | leaving result => exact single_leaving h launch r hr result hstage
  | closing result => exact single_closing h launch r hr result hstage

end

end SchedulerRun

end SigningGateway
