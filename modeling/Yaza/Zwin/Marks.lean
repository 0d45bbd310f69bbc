import Yaza.Gles.Tables
import Yaza.Zwin.Sending

/-! Every attribute with a buffer and every parameter of a sampler is marked as changed, in every
state of every run: what sets a mark is never undone. -/
namespace Yaza

theorem GlVertexArray.Flagged.commit {x : GlVertexArray} (h : x.Flagged) : x.commit.Flagged := by
  intro e he
  apply h e
  rcases List.mem_append.mp he with he | he <;> exact List.mem_append_left _ he

/-- An attribute whose request keeps it marked. -/
theorem GlVertexArray.Flagged.update {x : GlVertexArray} (h : x.Flagged) (index : UInt32)
    {f : VertexAttribute → VertexAttribute}
    (hf : ∀ a, (a.glBuffer.isSome → a.glBufferChanged = true) →
      (f a).glBuffer.isSome → (f a).glBufferChanged = true) :
    (x.updatePendingAttribute index f).Flagged := by
  intro e he
  rcases List.mem_append.mp he with he | he
  · rcases Table.mem_insertOrAssign he with he | rfl
    · exact h e (List.mem_append_left _ he)
    · apply hf
      cases hp : x.pending.find? index with
      | none => simp
      | some a =>
        obtain ⟨d, hd, rfl⟩ := Table.mem_of_find? hp
        exact h d (List.mem_append_left _ hd)
  · exact h e (List.mem_append_right _ he)

theorem GlSampler.Flagged.commit {x : GlSampler} (h : x.Flagged) : x.commit.Flagged := by
  intro e he
  apply h e
  have hc : x.commit.pending ++ x.commit.current = x.current.merge x.pending := rfl
  rw [hc] at he
  rcases Table.mem_merge he with he | he
  · exact List.mem_append_right _ he
  · exact List.mem_append_left _ he

theorem GlSampler.Flagged.assign {x : GlSampler} (h : x.Flagged) (pname : UInt32) {v : Parameter}
    (hv : v.changed = true) :
    GlSampler.Flagged { x with pending := x.pending.insertOrAssign pname v } := by
  intro e he
  rcases List.mem_append.mp he with he | he
  · rcases Table.mem_insertOrAssign he with he | rfl
    · exact h e (List.mem_append_left _ he)
    · exact hv
  · exact h e (List.mem_append_right _ he)

namespace Scene
namespace Flagged
variable {s s' : Scene} (h : s.Flagged)
include h

theorem of_eq (hv : s'.glVertexArrays = s.glVertexArrays) (hp : s'.glSamplers = s.glSamplers) :
    s'.Flagged where
  vertexArrays := by
    rw [hv]
    exact h.vertexArrays
  samplers := by
    rw [hp]
    exact h.samplers

theorem crash (f : Fault) : (s.crash f).Flagged := h.of_eq rfl rfl

theorem postError (i : ℕ) (code : ErrorCode) (text : String) :
    (s.postError i code text).Flagged := by
  rcases postError_cases s i code text with he | ⟨e, he⟩ <;> rw [he] <;> exact h.of_eq rfl rfl

omit h in
theorem commitStep {T : ℕ → Prop} (hc : CommitStep T s s') (h : s.Flagged) : s'.Flagged := by
  cases hc with
  | error r code text => exact h.postError r code text
  | unit u y hu hy hc =>
    rw [registerUnit, if_neg (by simp [hc])]
    rcases addRenderingUnit_cases s y.owner u with he | ⟨x, hx, he⟩ <;> rw [he] <;>
      exact h.of_eq rfl rfl
  | sampler p x hp hx => exact ⟨h.vertexArrays, h.samplers.set (h.samplers p x hx).commit⟩
  | vertexArray va x hva hx =>
    exact ⟨h.vertexArrays.set (h.vertexArrays va x hx).commit, h.samplers⟩
  | _ => exact h.of_eq rfl rfl

theorem commitState (v : ℕ) : (s.commitState v).Flagged :=
  Path.preserves (P := Flagged) (fun _ _ hc h => commitStep hc h) (commitState_commits_true s v) h

theorem commitVirtualObject (ht : Tree s) (v : ℕ) : (s.commitVirtualObject v).Flagged :=
  (h.commitState v).of_content
    (syncIfSession_steps ((commitState_commits_true s v).tree ht).registered v).content

theorem withTechnique {t : ℕ} {f : Scene → Scene} (hf : (f s).Flagged) :
    (s.withTechnique t f).Flagged := by
  unfold Scene.withTechnique
  split
  · exact hf
  · exact h

theorem setParamater (p : ℕ) (type : ParamType) (pname : UInt32) (arg : SamplerArg)
    (garbage : Bytes) : (s.setParamater p type pname arg garbage).Flagged := by
  unfold Scene.setParamater
  split
  · exact h.postError ..
  · split
    · exact h.postError ..
    · exact ⟨h.vertexArrays, h.samplers.modify fun x _ hx => hx.assign pname rfl⟩

theorem handle (ht : Tree s) (client : ℕ) (r : Request) : (s.handle client r).Flagged := by
  cases r with
  | commit v => exact h.commitVirtualObject ht v
  | createGlVertexArray =>
    exact ⟨h.vertexArrays.set (fun e he => by cases he), h.samplers⟩
  | createGlSampler => exact ⟨h.vertexArrays, h.samplers.set fun e he => by cases he⟩
  | createGlBaseTechnique u =>
    simp only [Scene.handle, createGlBaseTechnique]
    split <;> exact h.of_eq rfl rfl
  | getBounded v halfSize =>
    have h1 : (s.newBounded client v).Flagged := h.of_eq rfl rfl
    have h2 : ((s.newBounded client v).configure s.nextId halfSize).Flagged := by
      unfold configure
      split
      · exact h1.postError ..
      · exact h1.of_eq rfl rfl
    exact h2.of_eq rfl rfl
  | ackConfigure b serial =>
    simp only [Scene.handle, ackConfigure]
    split
    · exact h.crash _
    · split <;> exact h.of_eq rfl rfl
  | setRegion b region =>
    simp only [Scene.handle, setRegion]
    split
    · exact h.crash _
    · split <;> exact h.of_eq rfl rfl
  | addCuboid region halfSize center quat =>
    simp only [Scene.handle, addCuboid]
    split <;> first | exact h.postError .. | exact h.of_eq rfl rfl
  | uniformVector =>
    apply h.withTechnique
    unfold uniformVector
    split
    · exact h.postError ..
    · split
      · exact h.postError ..
      · exact h.of_eq rfl rfl
  | uniformMatrix =>
    apply h.withTechnique
    unfold uniformMatrix
    split
    · exact h.postError ..
    · split
      · exact h.postError ..
      · split
        · exact h.postError ..
        · exact h.of_eq rfl rfl
  | drawElements =>
    apply h.withTechnique
    unfold drawElements
    split
    · exact h.postError ..
    · exact h.of_eq rfl rfl
  | parameterF p pname param =>
    simp only [Scene.handle, parameterF]
    split
    · exact h.postError ..
    · exact h.setParamater ..
  | parameterI | parameterV => exact h.setParamater ..
  | vertexAttribPointer va index size type normalized stride offset b =>
    simp only [Scene.handle, vertexAttribPointer]
    split
    · exact h.postError ..
    · exact ⟨h.vertexArrays.modify fun x _ hx => hx.update index fun a _ _ => rfl, h.samplers⟩
  | setAttribEnability va index enabled =>
    exact ⟨h.vertexArrays.modify fun x _ hx => hx.update index fun a ha hb => ha hb, h.samplers⟩
  | _ => exact h.of_eq rfl rfl

theorem destroyResource (r : ℕ) : (s.destroyResource r).Flagged := by
  unfold Scene.destroyResource
  split
  · exact h
  · next x _ =>
    have tree (hi : inTree x.interface) : (s.deleteObject r x.interface).Flagged := by
      have hl := deleteObject_leaves s r hi
      exact h.of_eq (congrArg Scene.glVertexArrays hl :) (congrArg Scene.glSamplers hl :)
    suffices hd : (s.deleteObject r x.interface).Flagged from hd.of_eq rfl rfl
    cases hx : x.interface with
    | virtualObject | bounded | renderingUnit | baseTechnique =>
      rw [hx] at tree
      exact tree rfl
    | glVertexArray => exact ⟨h.vertexArrays.erase, h.samplers⟩
    | glSampler => exact ⟨h.vertexArrays, h.samplers.erase⟩
    | _ => exact h.of_eq rfl rfl

theorem step (ht : Tree s) (a : Action) : (s.step a).Flagged := by
  unfold Scene.step
  split
  · exact h
  · cases a with
    | request client r =>
      simp only [act]
      split
      · exact h.handle ht client r
      · exact h
    | destroy client r =>
      simp only [act]
      split
      · exact h.destroyResource r
      · exact h
    | peerDiscover connected =>
      exact h.of_content (peerDiscover_content ht.registered connected)
    | sessionDisconnect => exact h.of_content (sessionDisconnect_content s)
    | frameTimer busyness =>
      simp only [act, frameTimer]
      split <;> exact h.of_eq rfl rfl
    | moveApp b polar azimuthal =>
      simp only [act, moveApp]
      split
      · exact h
      · next x hx =>
        have ht1 : Tree (s.turnApp b x polar azimuthal) :=
          ht.same (turnApp_same s b x polar azimuthal)
        have h1 : (s.turnApp b x polar azimuthal).Flagged := h.of_eq rfl rfl
        exact h1.commitVirtualObject ht1 _

end Flagged

theorem init_flagged : init.Flagged where
  vertexArrays := fun _ _ h => by cases h
  samplers := fun _ _ h => by cases h

end Scene
end Yaza
