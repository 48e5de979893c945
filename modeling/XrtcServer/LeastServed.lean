import XrtcServer.Runs
import Mathlib.Logic.Function.Basic
import Mathlib.Order.Lattice
import Mathlib.Order.Basic
import Mathlib.Data.Set.Defs
import Mathlib.Algebra.BigOperators.Group.List.Basic
import Mathlib.Algebra.GroupWithZero.Nat

/-! A server that always serves a client with the least account. An account that has fallen
behind the largest one by more than a lead is raised when its client is served. -/
namespace LeastServed
variable {ι : Type*}

/-- The accounts of the clients and the largest that there was. -/
@[ext] structure Accounts (ι : Type*) where
  size : ι → ℕ
  top : ℕ

/-- A client and the amount that it is served. -/
structure Service (ι : Type*) where
  client : ι
  amount : ℕ

variable {lead largest : ℕ} {active : Set ι} {s : Accounts ι} {v : Service ι}

def raised (lead : ℕ) (s : Accounts ι) (v : Service ι) : ℕ :=
  max (s.size v.client + v.amount) (s.top - lead)

def serve [DecidableEq ι] (lead : ℕ) (s : Accounts ι) (v : Service ι) : Accounts ι where
  size := Function.update s.size v.client (raised lead s v)
  top := max (raised lead s v) s.top

/-- The service is of an active client with the least account, and not above the largest. -/
structure Least (active : Set ι) (largest : ℕ) (s : Accounts ι) (v : Service ι) : Prop where
  mem : v.client ∈ active
  least : ∀ i ∈ active, s.size v.client ≤ s.size i
  amount : v.amount ≤ largest

/-- The amount that a client is served. -/
def total [DecidableEq ι] (i : ι) (vs : List (Service ι)) : ℕ :=
  ((vs.filter fun v => v.client = i).map Service.amount).sum

/-- The accounts in a window that began with that largest account: before its first service an
account is as it was, later it is within the lead, and no client is ahead of another by more
than a service unless it got only one. -/
structure Window (active : Set ι) (lead largest first : ℕ) (s : Accounts ι) (served : ι → ℕ) : Prop
    where
  first_le : first ≤ s.top
  upper : ∀ i ∈ active, s.size i ≤ served i + first
  lower : ∀ i ∈ active, served i = 0 ∧ s.top ≤ first + largest ∨
    s.top ≤ s.size i + lead ∧ first + served i ≤ s.size i + lead + largest
  ahead : ∀ i ∈ active, ∀ j ∈ active, served i ≤ largest ∨ s.size i ≤ s.size j + largest

theorem window_start (h : ∀ i ∈ active, s.size i ≤ s.top) :
    Window active lead largest s.top s fun _ => 0 where
  first_le := le_rfl
  upper i hi := by
    rw [Nat.zero_add]
    exact h i hi
  lower _ _ := Or.inl ⟨rfl, Nat.le_add_right _ _⟩
  ahead _ _ _ _ := Or.inl (Nat.zero_le _)

section Serve
variable [DecidableEq ι] {first : ℕ} {served : ι → ℕ}

theorem Window.client (h : Window active lead largest first s served)
    (hv : Least active largest s v) (hlead : largest ≤ lead) :
    raised lead s v ≤ served v.client + v.amount + first ∧
      (serve lead s v).top ≤ raised lead s v + lead ∧
        first + (served v.client + v.amount) ≤ raised lead s v + lead + largest := by
  have hupper := h.upper _ hv.mem
  have hlower := h.lower _ hv.mem
  have hfirst := h.first_le
  have hamount := hv.amount
  unfold serve raised
  dsimp only
  omega

/-- The account of another client: it was not less, so the top stays within reach. -/
theorem Window.unserved (h : Window active lead largest first s served)
    (hv : Least active largest s v) (hlead : largest ≤ lead) {i : ι} (hi : i ∈ active) :
    served i = 0 ∧ (serve lead s v).top ≤ first + largest ∨
      (serve lead s v).top ≤ s.size i + lead ∧ first + served i ≤ s.size i + lead + largest := by
  have hupper := h.upper _ hi
  have hleast := hv.least _ hi
  have hamount := hv.amount
  have htop : (serve lead s v).top ≤ max (s.size i + largest) s.top := by
    unfold serve raised
    dsimp only
    omega
  rcases h.lower _ hi with ⟨hzero, hle⟩ | ⟨hle, hserved⟩
  · exact Or.inl ⟨hzero, by omega⟩
  · exact Or.inr ⟨by omega, hserved⟩

/-- A client that is served again is not raised, so it stays behind every other. -/
theorem Window.ahead_client (h : Window active lead largest first s served)
    (hv : Least active largest s v) {j : ι} (hj : j ∈ active) :
    served v.client + v.amount ≤ largest ∨
      (serve lead s v).size v.client ≤ (serve lead s v).size j + largest := by
  have hamount := hv.amount
  rcases h.lower _ hv.mem with ⟨hzero, -⟩ | ⟨htop, -⟩
  · exact Or.inl (by omega)
  · refine Or.inr ?_
    rcases eq_or_ne j v.client with rfl | hne
    · exact Nat.le_add_right _ _
    · have hleast := hv.least j hj
      have hraised : raised lead s v ≤ s.size v.client + v.amount := by
        unfold raised
        omega
      simp only [LeastServed.serve, Function.update_self, Function.update_of_ne hne]
      omega

theorem Window.serve (h : Window active lead largest first s served)
    (hv : Least active largest s v) (hlead : largest ≤ lead) :
    Window active lead largest first (serve lead s v)
      (Function.update served v.client (served v.client + v.amount)) := by
  obtain ⟨hraised, htop, hserved⟩ := h.client hv hlead
  have hgrows : s.size v.client ≤ raised lead s v := by
    unfold raised
    omega
  refine ⟨h.first_le.trans (le_max_right _ _), fun i hi => ?_, fun i hi => ?_,
    fun i hi j hj => ?_⟩
  · rcases eq_or_ne i v.client with rfl | hne
    · simpa [LeastServed.serve] using hraised
    · simpa [LeastServed.serve, hne] using h.upper i hi
  · rcases eq_or_ne i v.client with rfl | hne
    · refine Or.inr ?_
      simpa [LeastServed.serve] using And.intro htop hserved
    · simpa [LeastServed.serve, hne] using h.unserved hv hlead hi
  · rcases eq_or_ne i v.client with rfl | hi'
    · rw [Function.update_self]
      exact h.ahead_client hv hj
    · rw [Function.update_of_ne hi']
      refine (h.ahead i hi j hj).imp_right fun hle => ?_
      have hj' : s.size j ≤ (LeastServed.serve lead s v).size j := by
        rcases eq_or_ne j v.client with rfl | hne
        · simpa [LeastServed.serve] using hgrows
        · simp [LeastServed.serve, hne]
      have hi'' : (LeastServed.serve lead s v).size i = s.size i := by simp [LeastServed.serve, hi']
      omega

theorem total_cons (i : ι) (v : Service ι) (vs : List (Service ι)) :
    total i (v :: vs) = (if v.client = i then v.amount else 0) + total i vs := by
  unfold total
  rw [List.filter_cons]
  split <;> simp_all

theorem Window.run {vs : List (Service ι)} (h : Window active lead largest first s served)
    (hlead : largest ≤ lead) (hvs : Runs.Along (LeastServed.serve lead) (Least active largest) s vs) :
    Window active lead largest first (Runs.run (LeastServed.serve lead) s vs)
      fun i => served i + total i vs := by
  induction vs generalizing s served with
  | nil => exact h
  | cons v vs ih =>
    have hrun := ih (h.serve hvs.1 hlead) hvs.2
    have hserved : (fun i => Function.update served v.client (served v.client + v.amount) i +
        total i vs) = fun i => served i + total i (v :: vs) := by
      funext i
      rw [total_cons]
      rcases eq_or_ne i v.client with rfl | hne
      · rw [Function.update_self, if_pos rfl, Nat.add_assoc]
      · rw [Function.update_of_ne hne, if_neg hne.symm, Nat.zero_add]
    rw [hserved] at hrun
    exact hrun

/-- In a window the clients that were active throughout get the same up to the lead and two
services. -/
theorem total_le {vs : List (Service ι)} (hs : ∀ i ∈ active, s.size i ≤ s.top)
    (hlead : largest ≤ lead) (hvs : Runs.Along (serve lead) (Least active largest) s vs) {i j : ι}
    (hi : i ∈ active) (hj : j ∈ active) : total i vs ≤ total j vs + lead + 2 * largest := by
  have h := (window_start hs).run hlead hvs
  have hlower := h.lower i hi
  have hupper := h.upper j hj
  have hahead := h.ahead i hi j hj
  omega

end Serve
end LeastServed
