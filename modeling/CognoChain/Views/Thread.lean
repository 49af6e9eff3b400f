import CognoChain.Model.Views
import CognoChain.Substrate.Climb

/-!
# The ancestors of a thread

Parents are not checked when a post is made: they may be missing, the post
itself, or part of a circle.  The ancestors a thread shows are still well
determined, in every state: the one maximal climb along parent links.
-/

namespace CognoChain

open Substrate

namespace Runtime

variable {s : Runtime} {viewer : Option AccountId} {stakers : List (AccountId × ℕ)} {id : ℕ}
  {post : EnrichedPost}

def parentOf (s : Runtime) (id : ℕ) : Option ℕ := (s.feed.posts.get id).bind Post.parent

/-- The ancestors of a post, nearest first: the maximal climb from it along
parent links to stored posts, at most the depth cap long. -/
def AncestorsOf (s : Runtime) (focal : ℕ) (chain : List ℕ) : Prop :=
  Climbs s.parentOf (fun id => s.feed.posts.contains id = true) maxThreadDepth [focal] focal chain

theorem enrichedPost_eq_some (h : s.enrichedPost id viewer stakers = some post) :
    post.id = id ∧ post.parent = s.parentOf id ∧ s.feed.posts.contains id = true := by
  unfold enrichedPost at h
  cases hstored : s.feed.posts.get id with
  | none =>
    rw [hstored] at h
    cases h
  | some stored =>
    rw [hstored, Option.map_some, Option.some.injEq] at h
    rw [← h]
    refine ⟨rfl, ?_, by simp [hstored]⟩
    rw [parentOf, hstored]
    rfl

theorem enrichedPost_eq_none (h : s.enrichedPost id viewer stakers = none) :
    ¬ s.feed.posts.contains id = true := by
  simpa [enrichedPost] using h

theorem ancestorsLoop_climbs (s : Runtime) (viewer : Option AccountId)
    (stakers : List (AccountId × ℕ)) (room : ℕ) (seen : List ℕ) (child : ℕ) :
    Climbs s.parentOf (fun id => s.feed.posts.contains id = true) room seen child
        ((s.ancestorsLoop viewer stakers room seen (s.parentOf child)).map EnrichedPost.id) ∧
      ∀ post ∈ s.ancestorsLoop viewer stakers room seen (s.parentOf child),
        s.enrichedPost post.id viewer stakers = some post := by
  induction room generalizing seen child with
  | zero => exact ⟨.stop (fun hroom => absurd hroom (Nat.lt_irrefl 0)), nofun⟩
  | succ room ih =>
    cases hparent : s.parentOf child with
    | none =>
      refine ⟨.stop ?_, nofun⟩
      intro _ above habove
      rw [hparent] at habove
      cases habove
    | some parent =>
      unfold ancestorsLoop
      split_ifs with hseen
      · refine ⟨.stop ?_, nofun⟩
        intro _ above habove _
        rw [hparent, Option.some.injEq] at habove
        rwa [← habove]
      · cases hpost : s.enrichedPost parent viewer stakers with
        | none =>
          refine ⟨.stop ?_, nofun⟩
          intro _ above habove hstored
          rw [hparent, Option.some.injEq] at habove
          rw [← habove] at hstored
          exact absurd hstored (enrichedPost_eq_none hpost)
        | some post =>
          obtain ⟨hid, hup, hstored⟩ := enrichedPost_eq_some hpost
          obtain ⟨hclimb, hposts⟩ := ih (parent :: seen) parent
          dsimp only
          rw [hup, List.map_cons, hid]
          refine ⟨hclimb.cons hparent hstored hseen, ?_⟩
          rintro other (_ | ⟨_, hother⟩)
          · rw [hid]
            exact hpost
          · exact hposts other hother

theorem thread_ancestors_eq (cfg : Config) (s : Runtime) (focal : ℕ)
    (viewer : Option AccountId) :
    (s.thread cfg focal viewer).ancestors =
      (s.ancestorsLoop viewer (s.stakerWeights cfg) maxThreadDepth [focal]
        (s.parentOf focal)).reverse := by
  unfold thread
  dsimp only
  cases hfocal : s.enrichedPost focal viewer (s.stakerWeights cfg) with
  | none =>
    have hmissing : s.feed.posts.get focal = none := by
      simpa using enrichedPost_eq_none hfocal
    rw [parentOf, hmissing]
    rfl
  | some post =>
    dsimp only
    rw [(enrichedPost_eq_some hfocal).2.1]

end Runtime

/-- The ancestors a thread shows, whatever the parent links look like: the
stored posts of the one maximal climb from the focal post, root first.  No
post is listed twice, the focal post is not listed, and the parent of each
listed post is the one listed before it. -/
theorem thread_ancestors_maximal (cfg : Config) (s : Runtime) (focal : ℕ)
    (viewer : Option AccountId) :
    ∃ chain, s.AncestorsOf focal chain ∧ (∀ other, s.AncestorsOf focal other → other = chain) ∧
      (s.thread cfg focal viewer).ancestors.map some =
        chain.reverse.map (fun id => s.enrichedPost id viewer (s.stakerWeights cfg)) ∧
      (s.thread cfg focal viewer).ancestors.map EnrichedPost.id = chain.reverse ∧
      (s.thread cfg focal viewer).ancestors.length ≤ maxThreadDepth ∧
      ((s.thread cfg focal viewer).ancestors.map EnrichedPost.id).Nodup ∧
      focal ∉ (s.thread cfg focal viewer).ancestors.map EnrichedPost.id ∧
      (s.thread cfg focal viewer).ancestors.IsChain
        (fun before post => post.parent = some before.id) := by
  obtain ⟨hclimb, hposts⟩ := s.ancestorsLoop_climbs viewer (s.stakerWeights cfg)
    maxThreadDepth [focal] focal
  rw [Runtime.thread_ancestors_eq]
  generalize s.ancestorsLoop viewer (s.stakerWeights cfg) maxThreadDepth [focal]
    (s.parentOf focal) = posts at hclimb hposts ⊢
  refine ⟨posts.map EnrichedPost.id, hclimb, fun other hother => hother.unique hclimb, ?_, ?_, ?_,
    ?_, ?_, ?_⟩
  · rw [List.map_reverse, List.map_reverse, List.map_map]
    congr 1
    exact List.map_congr_left (fun post hpost => (hposts post hpost).symm)
  · exact List.map_reverse
  · simpa using hclimb.capped
  · rw [List.map_reverse, List.nodup_reverse]
    exact hclimb.nodup
  · rw [List.map_reverse, List.mem_reverse]
    exact fun hmem => hclimb.fresh focal hmem List.mem_cons_self
  · rw [List.isChain_reverse]
    have hlinked := (List.isChain_cons.mp hclimb.linked).2
    rw [List.isChain_map] at hlinked
    refine hlinked.imp_of_mem_imp (fun child above hchild _ hparent => ?_)
    rw [(Runtime.enrichedPost_eq_some (hposts child hchild)).2.1]
    exact hparent

end CognoChain
