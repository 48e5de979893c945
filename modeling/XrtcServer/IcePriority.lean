import XrtcServer.IceSorting

/-! The priority of a pair of candidates: the formula of the ICE standard, exactly when the
code computes it, and the order of the connections that follows from it. -/
namespace XrtcServer
namespace Ice
open ByteFormat ObjectHeap Stun

/-- The formula that stands above `IceConnection::priority`. -/
def pairPriority (g d : ℕ) : ℕ := 2^32 * min g d + 2 * max g d + if g > d then 1 else 0

/-- The doubled priority loses its highest bit exactly when the larger priority has one; the
sum of the 64-bit parts never overflows. -/
theorem IceConnection.priority_eq_iff {k : IceConnection} {g : ℕ} (hg : g < 2^32)
    (hd : k.remotePriority < 2^32) :
    k.priority g = pairPriority g k.remotePriority ↔ max g k.remotePriority < 2^31 := by
  unfold priority pairPriority
  dsimp only
  generalize k.remotePriority = d at hd ⊢
  have hmax : max g d < 2^32 := max_lt hg hd
  have hmin : min g d < 2^32 := lt_of_le_of_lt (min_le_left g d) hg
  have hsum : ∀ one ≤ 1, min g d * 2^32 + 2 * max g d % 2^32 + one < 2^64 := by
    intro one hone
    omega
  have hsingle : (if g > d then 1 else 0) ≤ 1 := by
    split <;> decide
  rw [Nat.mod_eq_of_lt (hsum _ hsingle)]
  omega

namespace IceTransport

section PairOrder
variable (env : Environment) (s : IceTransport)

def pairPriorityOf (c : ℕ) : ℕ :=
  pairPriority (env.localPriority (s.conn c).port) (s.conn c).remotePriority

/-- Both candidates of every connection have 32-bit priorities. -/
def Priorities32 : Prop := ∀ c ∈ s.connections,
  env.localPriority (s.conn c).port < 2^32 ∧ (s.conn c).remotePriority < 2^32

/-- The connections have the priorities of their pairs, and the sort orders connections of the
same states by them. -/
structure RanksByPair : Prop where
  priority : ∀ c ∈ s.connections,
    (s.conn c).priority (env.localPriority (s.conn c).port) = s.pairPriorityOf env c
  sorted : (s.sortConnections env).connections.Pairwise fun a b =>
    (s.conn a).writeState = (s.conn b).writeState → (s.conn a).receiving = (s.conn b).receiving →
      s.pairPriorityOf env b ≤ s.pairPriorityOf env a

variable {env s}

/-- Between connections of the same states, the one in front has the larger priority. -/
theorem priority_le_of_rank_le {a b : ℕ} (h : s.rank env a ≤ s.rank env b)
    (hwrite : (s.conn a).writeState = (s.conn b).writeState)
    (hreceiving : (s.conn a).receiving = (s.conn b).receiving) :
    (s.conn b).priority (env.localPriority (s.conn b).port) ≤
      (s.conn a).priority (env.localPriority (s.conn a).port) := by
  unfold rank at h
  simp only [hwrite, hreceiving, Prod.Lex.toLex_le_toLex, lt_irrefl, true_and, false_or] at h
  rcases h with hlt | ⟨heq, -⟩
  · exact Int.ofNat_le.mp (Int.neg_le_neg_iff.mp hlt.le)
  · exact (Int.ofNat_inj.mp (Int.neg_inj.mp heq)).ge

/-- The connections are ranked by their pairs exactly when no candidate has a priority of
2^31 or more. -/
theorem ranksByPair_iff (h : s.Priorities32 env) : s.RanksByPair env ↔
    ∀ c ∈ s.connections, max (env.localPriority (s.conn c).port) (s.conn c).remotePriority < 2^31 := by
  have hone : ∀ c ∈ s.connections,
      ((s.conn c).priority (env.localPriority (s.conn c).port) = s.pairPriorityOf env c ↔
        max (env.localPriority (s.conn c).port) (s.conn c).remotePriority < 2^31) :=
    fun c hc => IceConnection.priority_eq_iff (h c hc).1 (h c hc).2
  constructor
  · exact fun hranks c hc => (hone c hc).mp (hranks.priority c hc)
  · intro hsmall
    have hpriority := fun c hc => (hone c hc).mpr (hsmall c hc)
    refine ⟨hpriority, ?_⟩
    apply (pairwise_sortConnections env s).imp_of_mem
    intro a b ha hb hrank hwrite hreceiving
    rw [← hpriority a (List.mem_mergeSort.mp ha), ← hpriority b (List.mem_mergeSort.mp hb)]
    exact priority_le_of_rank_le hrank hwrite hreceiving

end PairOrder

/-- Local candidates with the priority of a host candidate. -/
def hostEnvironment : Environment := { peerEnvironment with localPriority := fun _ => 2113937151 }

/-- Two connections of one port, to candidates with the given priorities. -/
def twoRemotes (first second : ℕ) : IceTransport :=
  (({} : IceTransport).addConnection hostEnvironment 0 peerAddress [119, 120, 121, 122]
    first).addConnection hostEnvironment 0 ⟨[192, 0, 2, 8], 50000⟩ [119, 120, 121, 122] second

/-- Two peer reflexive candidates. -/
theorem ranksByPair_peerReflexive : (twoRemotes 1853824767 1853817087).RanksByPair hostEnvironment := by
  have h32 : (twoRemotes 1853824767 1853817087).Priorities32 hostEnvironment := by
    unfold Priorities32
    decide +kernel
  exact (ranksByPair_iff h32).mpr (by decide +kernel)

/-- The priority 2^31 of the first candidate is lost, and the connection to it goes behind. -/
theorem highPriority_behind :
    ¬(twoRemotes (2^31) (2^31 - 1)).RanksByPair hostEnvironment ∧
      ((twoRemotes (2^31) (2^31 - 1)).sortConnections hostEnvironment).connections = [1, 0] ∧
      (twoRemotes (2^31) (2^31 - 1)).pairPriorityOf hostEnvironment 1 <
        (twoRemotes (2^31) (2^31 - 1)).pairPriorityOf hostEnvironment 0 := by
  have hbehind : (twoRemotes (2^31) (2^31 - 1)).sortsBefore hostEnvironment 1 0 = true := by
    decide +kernel
  refine ⟨fun hranks => ?_, ?_, by decide +kernel⟩
  · have hfirst := hranks.priority 0 (by decide)
    exact absurd hfirst (by decide +kernel)
  · rw [sortConnections_pair hostEnvironment _ (a := 0) (b := 1) rfl, hbehind]
    rfl

end IceTransport
end Ice
end XrtcServer
