import CognoChain.Social
import CognoChain.Substrate.Tally

/-!
# Follow counters

How many accounts somebody follows, and how many follow them, is kept beside
the follow rows, which are stored in both directions.  A counter is exact in
every run that does not bump it at its maximum.
-/

namespace CognoChain

open Substrate

variable {cfg : Config} {s : Runtime} {op : Op} {who : AccountId}

def FollowGraph.CountsFollowing (g : FollowGraph) (who : AccountId) : Prop :=
  Degree g.followingCount g.following who

/-- The account's following counter is below its maximum. -/
def Runtime.FollowsBelowMax (who : AccountId) (s : Runtime) : Prop :=
  s.graph.followingCount.getD who 0 < u32Max

theorem SocialStep.countsFollowing {after : Social} (hstep : SocialStep cfg s op after)
    (hroom : s.FollowsBelowMax who) (hcounts : s.graph.CountsFollowing who) :
    after.graph.CountsFollowing who := by
  cases hstep with
  | link follower target hne hnew =>
    exact Degree.insert hcounts (StorageMap.contains_eq_false_iff.mp hnew) hroom
  | unlink follower target hold =>
    have hstored : s.graph.following.get (follower, target) = some () := by
      obtain ⟨row, hrow⟩ := Option.isSome_iff_exists.mp hold
      exact hrow
    exact Degree.remove hcounts hstored
  | _ => exact hcounts

theorem Runtime.run_countsFollowing {ops : List Op}
    (hroom : Along (Runtime.step cfg) (fun s _ => s.FollowsBelowMax who) s ops)
    (hcounts : s.graph.CountsFollowing who) : (s.run cfg ops).graph.CountsFollowing who := by
  apply hroom.invariant (fun t : Runtime => t.graph.CountsFollowing who) _ hcounts
  intro before op hbefore hcounts
  exact (Runtime.step_socialStep op).countsFollowing hbefore hcounts

/-! ## Both directions -/

/-- Every edge is stored in both directions, and both are counted. -/
structure FollowGraph.Counted (g : FollowGraph) : Prop where
  mirrored : ∀ follower followee, g.followers.get (followee, follower) =
    g.following.get (follower, followee)
  following : ∀ who, g.CountsFollowing who
  followers : ∀ who, Degree g.followerCount g.followers who

theorem FollowGraph.Counted.genesis : FollowGraph.Counted {} :=
  ⟨fun _ _ => rfl, fun who => .empty who, fun who => .empty who⟩

theorem SocialStep.followsCounted {after : Social} (hstep : SocialStep cfg s op after)
    (hfollowing : ∀ who, s.FollowsBelowMax who)
    (hfollowers : ∀ who, s.graph.followerCount.getD who 0 < u32Max)
    (hcounted : s.graph.Counted) : after.graph.Counted := by
  have hforward : ∀ who, after.graph.CountsFollowing who :=
    fun who => hstep.countsFollowing (hfollowing who) (hcounted.following who)
  cases hstep with
  | link follower target hne hnew =>
    have hnew : s.graph.followers.get (target, follower) = none := by
      rw [hcounted.mirrored]
      exact StorageMap.contains_eq_false_iff.mp hnew
    refine ⟨fun a b => ?_, hforward,
      fun who => (hcounted.followers who).insert hnew (hfollowers who)⟩
    dsimp only [FollowGraph.link]
    rw [StorageMap.get_insert, StorageMap.get_insert, hcounted.mirrored]
    simp only [Prod.mk.injEq, and_comm]
  | unlink follower target hold =>
    have hstored : s.graph.followers.get (target, follower) = some () := by
      rw [hcounted.mirrored]
      obtain ⟨row, hrow⟩ := Option.isSome_iff_exists.mp hold
      exact hrow
    refine ⟨fun a b => ?_, hforward, fun who => (hcounted.followers who).remove hstored⟩
    dsimp only [FollowGraph.unlink]
    rw [StorageMap.get_remove, StorageMap.get_remove, hcounted.mirrored]
    simp only [Prod.mk.injEq, and_comm]
  | _ => exact hcounted

end CognoChain
