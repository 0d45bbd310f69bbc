import Yaza.Gles.Direct
import Yaza.Zwin.TechniqueSteps

/-! The techniques of a run refine direct execution: at each commit of its virtual object a
technique says what the requests made so far, applied in order, make of a fresh one. -/
namespace Yaza
namespace Scene

/-- The requests a run makes on a technique, in order. -/
def requests (t : ℕ) : Scene → List Action → List TechniqueRequest
  | _, [] => []
  | s, a :: as => (s.accepted t a).toList ++ requests t (s.step a) as

theorem requests_append (t : ℕ) (s : Scene) (as bs : List Action) :
    requests t s (as ++ bs) = requests t s as ++ requests t (Run.final step s as) bs := by
  induction as generalizing s with
  | nil => rfl
  | cons a as ih => simp [requests, ih]

theorem requests_concat (t : ℕ) (as : List Action) (a : Action) :
    requests t init (as ++ [a]) = requests t init as ++ ((run as).accepted t a).toList := by
  rw [requests_append]
  simp [requests, run]

theorem technique_lt_nextId {s : Scene} (hs : Tree s) {t : ℕ} (ht : (s.baseTechniques t).isSome) :
    t < s.nextId := by
  by_contra hge
  have h := (hs.fresh t (by omega)).2.2
  simp only [forest, Arena.mapAll_apply, Option.map_eq_none_iff] at h
  simp [h] at ht

/-- Nothing is asked of a technique before it is created. -/
theorem requests_of_fresh {t : ℕ} {as : List Action} (ht : (run as).nextId ≤ t) :
    requests t init as = [] := by
  induction as using List.reverseRecOn with
  | nil => rfl
  | append_singleton as a ih =>
    rw [run_concat] at ht
    have hle := (nextId_le_step (run_tree as) a).trans ht
    rw [requests_concat, ih hle]
    have hn : ¬ ((run as).baseTechniques t).isSome := fun h =>
      absurd (technique_lt_nextId (run_tree as) h) (by omega)
    unfold accepted
    split <;> simp [hn]

/-- `old` is what the last commit has seen, `new` what was asked since. -/
structure Buffered (old new : List TechniqueRequest) (z : GlBaseTechnique) : Prop where
  current : z.current.view = DirectTechnique.executeAll old
  pending : ∃ p : TechniqueState, p.Clean ∧ z.pending = new.foldl TechniqueState.request p

section Buffered
variable {old new : List TechniqueRequest} {z z' : GlBaseTechnique}

theorem view_of_core (h : core z' = core z) : z'.current.view = z.current.view :=
  show (core z').current.view = (core z).current.view from by rw [h]

theorem pending_of_core (h : core z' = core z) : z'.pending = z.pending :=
  show (core z').pending = (core z).pending from by rw [h]

theorem Buffered.of_core (hb : Buffered old new z) (h : core z' = core z) : Buffered old new z' :=
  ⟨(view_of_core h).trans hb.current, pending_of_core h ▸ hb.pending⟩

theorem Buffered.request (hb : Buffered old new z) (q : TechniqueRequest) :
    Buffered old (new ++ [q]) (z.request q) := by
  obtain ⟨p, hp, he⟩ := hb.pending
  exact ⟨hb.current, p, hp, by simp [GlBaseTechnique.request, he]⟩

theorem Buffered.commit (hb : Buffered old new z) (alive : TextureBinding → Bool) :
    Buffered (old ++ new) [] (z.commit alive) := by
  obtain ⟨p, hp, he⟩ := hb.pending
  refine ⟨?_, z.pending.afterCommit alive, TechniqueState.clean_afterCommit alive _, rfl⟩
  have hc : (z.commit alive).current = z.pending.commit alive z.current := rfl
  rw [hc, he, hp.view_commit_requests, hb.current]
  exact List.foldl_append.symm

end Buffered

/-- Every technique is buffered, in every reachable scene. -/
theorem run_buffered {as : List Action} {t : ℕ} {z : GlBaseTechnique}
    (hz : (run as).baseTechniques t = some z) :
    ∃ old new, requests t init as = old ++ new ∧ Buffered old new z := by
  induction as using List.reverseRecOn generalizing z with
  | nil => simp [run, init] at hz
  | append_singleton as a ih =>
    rw [run_concat] at hz
    rcases step_technique (run_tree as) (run_wired as) a hz with ⟨rfl, u, rfl⟩ | ⟨z₀, hz₀, hst⟩
    · refine ⟨[], [], ?_, rfl, _, TechniqueState.clean_new, rfl⟩
      have hn : (run as).baseTechniques (run as).nextId = none := by
        simpa [forest] using ((run_tree as).fresh _ (Nat.le_refl _)).2.2
      rw [requests_concat, requests_of_fresh (Nat.le_refl _)]
      unfold accepted
      split <;> simp [hn]
    · obtain ⟨old, new, hr, hb⟩ := ih hz₀
      by_cases ha : (run as).Reaches a t
      · refine ⟨old ++ new, [], ?_, (hb.commit _).of_core (hst.reached ha)⟩
        rw [requests_concat, hr, reaches_accepted ha]
        simp
      · have ho := hst.other ha
        rw [requests_concat, hr]
        cases hq : (run as).accepted t a with
        | none =>
          rw [hq] at ho
          exact ⟨old, new, by simp, hb.of_core ho⟩
        | some q =>
          rw [hq] at ho
          exact ⟨old, new ++ [q], by simp, (hb.request q).of_core ho⟩

theorem unchanged_of_core {z z' : GlBaseTechnique} (h : core z' = core z)
    (hu : z.current.Unchanged) : z'.current.Unchanged := by
  have hc (z : GlBaseTechnique) : (core z).current.Unchanged ↔ z.current.Unchanged :=
    ⟨fun h => ⟨h.program, h.vertexArray, h.draw, h.textures, h.uniforms⟩,
      fun h => ⟨h.program, h.vertexArray, h.draw, h.textures, h.uniforms⟩⟩
  rw [← hc, h, hc]
  exact hu

/-- A commit makes a technique of what was there before. -/
theorem step_reached {as : List Action} {a : Action} {t : ℕ} (ha : (run as).Reaches a t)
    {z' : GlBaseTechnique} (hz' : (run (as ++ [a])).baseTechniques t = some z') :
    ∃ z, (run as).baseTechniques t = some z ∧
      core z' = core (z.commit (run as).bindingAlive) := by
  rw [run_concat] at hz'
  rcases step_technique (run_tree as) (run_wired as) a hz' with ⟨rfl, -⟩ | ⟨z, hz, hst⟩
  · obtain ⟨v, -, hv⟩ := ha
    have hn : (run as).baseTechniques (run as).nextId = none := by
      simpa [forest] using ((run_tree as).fresh _ (Nat.le_refl _)).2.2
    simp [objectOfTechnique, hn] at hv
  · exact ⟨z, hz, hst.reached ha⟩

/-- The state a commit leaves says what all requests so far, in order, make of a technique. -/
theorem view_after_commit {as : List Action} {a : Action} {t : ℕ} (ha : (run as).Reaches a t)
    {z : GlBaseTechnique} (hz : (run (as ++ [a])).baseTechniques t = some z) :
    z.current.view = DirectTechnique.executeAll (requests t init as) := by
  obtain ⟨z₀, hz₀, he⟩ := step_reached ha hz
  obtain ⟨old, new, hr, hb⟩ := run_buffered hz₀
  rw [view_of_core he, (hb.commit _).current, hr]

/-- Between two commits of its object a technique says the same. -/
theorem view_until_commit {as bs : List Action} {t : ℕ} {z : GlBaseTechnique}
    (hn : Run.Each step (fun s b => ¬ s.Reaches b t) (run as) bs)
    (hlt : t < (run as).nextId) (hz : (run (as ++ bs)).baseTechniques t = some z) :
    ∃ z₀, (run as).baseTechniques t = some z₀ ∧ z.current.view = z₀.current.view := by
  induction bs using List.reverseRecOn generalizing z with
  | nil => exact ⟨z, by simpa using hz, rfl⟩
  | append_singleton bs b ih =>
    obtain ⟨hbs, hb⟩ := Run.each_concat.mp hn
    rw [← List.append_assoc, run_concat] at hz
    have hle : (run as).nextId ≤ (run (as ++ bs)).nextId := by
      clear ih hz hn hbs hb
      induction bs using List.reverseRecOn with
      | nil => simp
      | append_singleton bs b ih =>
        rw [← List.append_assoc, run_concat]
        exact ih.trans (nextId_le_step (run_tree _) b)
    rcases step_technique (run_tree _) (run_wired _) b hz with ⟨rfl, -⟩ | ⟨z₁, hz₁, hst⟩
    · exact absurd hlt (by omega)
    · obtain ⟨z₀, hz₀, hv⟩ := ih hbs hz₁
      refine ⟨z₀, hz₀, ?_⟩
      have hb' : ¬ (run (as ++ bs)).Reaches b t := by
        rw [run, Run.final_append]
        exact hb
      have ho := view_of_core (hst.other hb')
      rw [ho, ← hv]
      split <;> rfl

/-- After a commit, what is pending stays clean until the next request. -/
theorem clean_until_request {as bs : List Action} {a : Action} {t : ℕ}
    (ha : (run as).Reaches a t) (hr : requests t (run (as ++ [a])) bs = [])
    {z : GlBaseTechnique} (hz : (run (as ++ [a] ++ bs)).baseTechniques t = some z) :
    z.pending.Clean := by
  induction bs using List.reverseRecOn generalizing z with
  | nil =>
    obtain ⟨z₀, -, he⟩ := step_reached ha (by simpa using hz)
    rw [pending_of_core he]
    exact TechniqueState.clean_afterCommit ..
  | append_singleton bs b ih =>
    rw [requests_append, List.append_eq_nil_iff] at hr
    obtain ⟨hr, hb⟩ := hr
    rw [← List.append_assoc, run_concat] at hz
    rcases step_technique (run_tree _) (run_wired _) b hz with ⟨-, u, rfl⟩ | ⟨z₁, hz₁, hst⟩
    · exact TechniqueState.clean_new
    · have hacc : (run (as ++ [a] ++ bs)).accepted t b = none := by
        simpa [requests, run, Run.final_append] using hb
      by_cases hre : (run (as ++ [a] ++ bs)).Reaches b t
      · rw [pending_of_core (hst.reached hre)]
        exact TechniqueState.clean_afterCommit ..
      · have ho := hst.other hre
        rw [hacc] at ho
        rw [pending_of_core ho]
        exact ih hr hz₁

/-- Double buffering refines direct execution. After a commit of its virtual object and up to the
next one, a technique says what the requests made before that commit, applied in order, make of
it; a second commit with no request in between changes nothing of this and clears every flag. -/
theorem technique_refines_direct (t : ℕ) (as : List Action) (a : Action)
    (ha : (run as).Reaches a t) (bs : List Action) :
    (Run.Each step (fun s b => ¬ s.Reaches b t) (run (as ++ [a])) bs →
      ∀ z, (run (as ++ [a] ++ bs)).baseTechniques t = some z →
        z.current.view = DirectTechnique.executeAll (requests t init as) ∧
          DirectTechnique.SaysLast (requests t init as) z.current.view) ∧
    (requests t (run (as ++ [a])) bs = [] → ∀ c z, (run (as ++ [a] ++ bs)).Reaches c t →
      (run (as ++ [a] ++ bs ++ [c])).baseTechniques t = some z →
        z.current.view = DirectTechnique.executeAll (requests t init as) ∧
          z.current.Unchanged) := by
  constructor
  · intro hn z hz
    have hlt : t < (run (as ++ [a])).nextId := by
      obtain ⟨v, -, hv⟩ := ha
      have hl : ((run as).baseTechniques t).isSome := Option.isSome_of_isSome_bind (by
        rw [objectOfTechnique] at hv
        rw [hv]
        rfl)
      rw [run_concat]
      exact (technique_lt_nextId (run_tree as) hl).trans_le (nextId_le_step (run_tree as) a)
    obtain ⟨z₀, hz₀, hv⟩ := view_until_commit hn hlt hz
    rw [hv, view_after_commit ha hz₀]
    exact ⟨rfl, DirectTechnique.executeAll_saysLast _⟩
  · intro hr c z hc hz
    constructor
    · rw [view_after_commit hc hz, requests_append, requests_concat, reaches_accepted ha]
      have he : requests t (Run.final step init (as ++ [a])) bs = [] := hr
      simp [he]
    · obtain ⟨z₀, hz₀, he⟩ := step_reached hc hz
      refine unchanged_of_core he ?_
      exact (clean_until_request ha hr hz₀).unchanged_commit _ _

/-- A technique whose program is bound, before the first commit of its virtual object. -/
def boundRun : List Action :=
  [.request 0 .createVirtualObject, .request 0 (.createRenderingUnit 0),
    .request 0 (.createGlBaseTechnique 1), .request 0 .createGlProgram,
    .request 0 (.bindProgram 2 3)]

theorem technique_refines_direct_bound :
    (∃ z, (run (boundRun ++ [.request 0 (.commit 0)] ++ [])).baseTechniques 2 = some z ∧
      DirectTechnique.SaysLast [.bindProgram 3] z.current.view) ∧
    ∃ z, (run (boundRun ++ [.request 0 (.commit 0)] ++ [] ++
      [.request 0 (.commit 0)])).baseTechniques 2 = some z ∧ z.current.Unchanged := by
  have h := technique_refines_direct 2 boundRun (.request 0 (.commit 0)) ⟨0, rfl, rfl⟩ []
  exact ⟨⟨_, rfl, (h.1 (by simp [Run.each_nil]) _ rfl).2⟩,
    ⟨_, rfl, (h.2 rfl (.request 0 (.commit 0)) _ ⟨0, rfl, rfl⟩ rfl).2⟩⟩

end Scene
end Yaza
