import LiveSTT.Gateway.Auth
import LiveSTT.Lib.SlidingWindow

/-!
# The login rate limit is a sliding window

`check_auth_rate_limit` remembers, for each client IP, the times of the accepted attempts that its
eviction loop has left. The specification has no memory to clean up: it looks at the whole history
of calls (`acceptedTimes`). The two agree because the readings of the monotonic clock do not
decrease, so the history is sorted and the loop, which stops at the first entry that is young
enough, leaves exactly the entries of the last minute (`Limited`, an instance of
`SlidingWindow.Kept` for each IP).

An attempt is rejected at the capacity of the window that ends with it (`sliding_window`). A
rejected attempt is in no window, and no window holds the attempts of two IPs.

The law of the window is one of the library and knows nothing of addresses. What is shown here is
that the function of the source keeps one window for each IP and touches no other and that the
readings it compares are those of the specification.
-/

namespace LiveSTT.RateLimit

open Gateway SlidingWindow

/-! ### Calls and their history -/

/-- A call of `check_auth_rate_limit`, and whether the attempt was let through. -/
structure Call where
  clientIp : String
  now : ℚ
  accepted : Bool

structure State where
  attempts : Attempts := fun _ ↦ []
  /-- The calls so far, in order. It decides nothing. -/
  history : List Call := []

/-- One call. -/
def step (s : State) (clientIp : String) (now : ℚ) : State :=
  let checked := checkAuthRateLimit s.attempts clientIp now
  { attempts := checked.1, history := s.history ++ [⟨clientIp, now, checked.2⟩] }

/-- The limiter, from the start of the process. -/
def system : TransitionSystem State (String × ℚ) where
  init s := s = {}
  step s call := some (step s call.1 call.2)

/-- The clock does not go back. -/
def Advances (s : State) (call : String × ℚ) : Prop :=
  ∀ c ∈ s.history, c.now ≤ call.2

instance (s : State) (call : String × ℚ) : Decidable (Advances s call) :=
  inferInstanceAs (Decidable (∀ c ∈ s.history, c.now ≤ call.2))

/-- The times of the accepted attempts of an IP. -/
def acceptedTimes (history : List Call) (clientIp : String) : List ℚ :=
  (history.filter fun c ↦ c.accepted && c.clientIp = clientIp).map Call.now

theorem acceptedTimes_snoc (history : List Call) (c : Call) (clientIp : String) :
    acceptedTimes (history ++ [c]) clientIp = acceptedTimes history clientIp ++
      if c.accepted = true ∧ c.clientIp = clientIp then [c.now] else [] := by
  rw [acceptedTimes, List.filter_append, List.map_append, acceptedTimes]
  congr 1
  split <;> simp_all

theorem le_of_mem_acceptedTimes {s : State} {call : String × ℚ} (h : Advances s call)
    {clientIp : String} {x : ℚ} (hx : x ∈ acceptedTimes s.history clientIp) : x ≤ call.2 := by
  obtain ⟨c, hc, rfl⟩ := List.mem_map.1 hx
  exact h c (List.mem_filter.1 hc).1

/-! ### What the memory is to the history -/

/-- The invariant, for each IP: at every reading to come, the memory is what is kept of the accepted
attempts, and no minute holds too many of them. -/
structure Limited (s : State) : Prop where
  kept : ∀ clientIp now, Advances s (clientIp, now) →
    Kept authWindowS now (acceptedTimes s.history clientIp) (s.attempts clientIp)
  sparse : ∀ clientIp, Sparse authMaxAttempts authWindowS (acceptedTimes s.history clientIp)

section

variable {s t : State} {clientIp : String} {now : ℚ}

/-- A call, in terms of the history: the eviction loop leaves the accepted attempts of the last
minute. -/
theorem Limited.check (h : Limited s) (hnow : Advances s (clientIp, now)) :
    checkAuthRateLimit s.attempts clientIp now =
      let recent := within (acceptedTimes s.history clientIp) (now - authWindowS) now
      if authMaxAttempts ≤ recent.length then
        (Function.update s.attempts clientIp recent, false)
      else (Function.update s.attempts clientIp (recent ++ [now]), true) := by
  simp only [checkAuthRateLimit, (h.kept clientIp now hnow).evict]

/-- **The outcome of a call**: it is rejected when the last minute is full. -/
theorem Limited.rejected_iff (h : Limited s) (hnow : Advances s (clientIp, now)) :
    (checkAuthRateLimit s.attempts clientIp now).2 = false ↔ authMaxAttempts ≤
      (within (acceptedTimes s.history clientIp) (now - authWindowS) now).length := by
  rw [h.check hnow]
  simp only
  split
  · exact iff_of_true rfl ‹_›
  · exact iff_of_false nofun ‹_›

/-- The memory after a call: that of the other IPs is untouched. -/
theorem attempts_step (h : Limited s) (hnow : Advances s (clientIp, now)) (ip : String) :
    (step s clientIp now).attempts ip =
      if ip = clientIp then
        within (acceptedTimes s.history clientIp) (now - authWindowS) now ++
          if (checkAuthRateLimit s.attempts clientIp now).2 then [now] else []
      else s.attempts ip := by
  show (checkAuthRateLimit s.attempts clientIp now).1 ip = _
  rw [h.check hnow]
  by_cases hip : ip = clientIp
  · subst hip
    simp only [↓reduceIte]
    split <;> simp
  · simp only [if_neg hip]
    split <;> exact Function.update_of_ne hip _ _

theorem Limited.init : Limited {} :=
  ⟨fun _ _ _ ↦ Kept.nil, fun _ _ ↦ Nat.zero_le _⟩

/-- **One call** keeps the invariant. -/
theorem Limited.step (h : Limited s) (hnow : Advances s (clientIp, now)) :
    Limited (step s clientIp now) := by
  have hhistory : (RateLimit.step s clientIp now).history =
      s.history ++ [⟨clientIp, now, (checkAuthRateLimit s.attempts clientIp now).2⟩] := rfl
  have hcleaned : Kept authWindowS now (acceptedTimes s.history clientIp)
      (within (acceptedTimes s.history clientIp) (now - authWindowS) now) :=
    (h.kept clientIp now hnow).window
  refine ⟨fun ip later hlater ↦ ?_, fun ip ↦ ?_⟩
  · have hnow' : now ≤ later :=
      hlater ⟨clientIp, now, _⟩ (List.mem_append_right _ (List.mem_singleton_self _))
    have hlater' : Advances s (ip, later) :=
      fun c hc ↦ hlater c (List.mem_append_left _ hc)
    rw [hhistory, acceptedTimes_snoc, attempts_step h hnow]
    by_cases hip : ip = clientIp
    · subst hip
      rw [if_pos rfl]
      cases hcheck : (checkAuthRateLimit s.attempts ip now).2 with
      | true => simpa using hcleaned.append.advance hnow'
      | false => simpa using hcleaned.advance hnow'
    · simpa [hip, Ne.symm hip] using h.kept ip later hlater'
  · rw [hhistory, acceptedTimes_snoc]
    split
    · rename_i haccepted
      obtain ⟨hcheck, rfl⟩ := haccepted
      refine (h.sparse clientIp).append (fun x hx ↦ le_of_mem_acceptedTimes hnow hx) ?_
      -- An accepted attempt found room.
      refine not_le.1 fun hfull ↦ ?_
      rw [(h.rejected_iff hnow).2 hfull] at hcheck
      nomatch hcheck
    · rw [List.append_nil]
      exact h.sparse ip

/-- In every run at readings that do not decrease. -/
theorem limited_inductive : system.Inductive Advances Limited where
  init s hs := by
    obtain rfl : s = {} := hs
    exact Limited.init
  step := by
    rintro s ⟨clientIp, now⟩ t hs hnow ht
    obtain rfl := Option.some.inj ht
    exact hs.step hnow

/-- **The login rate limit is a true sliding window.** In every run of calls at non-decreasing clock
readings: a call is rejected exactly when five earlier ones of its IP were accepted in the last
minute; no closed minute holds more than five accepted attempts of an IP; and the outcome of a call
depends on the accepted attempts of its own IP alone — not on rejected ones, nor on other IPs. -/
theorem sliding_window (h : system.Reachable Advances s) (hnow : Advances s (clientIp, now)) :
    ((checkAuthRateLimit s.attempts clientIp now).2 = false ↔
      (within (acceptedTimes s.history clientIp) (now - 60) now).length = 5) ∧
    (∀ ip a, (within (acceptedTimes s.history ip) a (a + 60)).length ≤ 5) ∧
    ∀ t, system.Reachable Advances t → Advances t (clientIp, now) →
      acceptedTimes t.history clientIp = acceptedTimes s.history clientIp →
      (checkAuthRateLimit t.attempts clientIp now).2 =
        (checkAuthRateLimit s.attempts clientIp now).2 := by
  have hs : Limited s := limited_inductive.reachable h
  have hbound (ip : String) (a : ℚ) :
      (within (acceptedTimes s.history ip) a (a + 60)).length ≤ 5 := hs.sparse ip a
  refine ⟨?_, hbound, fun t ht hnow' heq ↦ ?_⟩
  · have hle := hbound clientIp (now - 60)
    rw [sub_add_cancel] at hle
    rw [hs.rejected_iff hnow]
    exact ⟨fun hfull ↦ le_antisymm hle hfull, fun hfull ↦ hfull.ge⟩
  · have hiff := (limited_inductive.reachable ht).rejected_iff hnow'
    rw [heq, ← hs.rejected_iff hnow] at hiff
    rwa [Bool.eq_false_iff, Bool.eq_false_iff, not_iff_not, ← Bool.eq_iff_iff] at hiff

/-- Five attempts within a minute, and one of another IP: the sixth is rejected a minute after the
first, and would be let through later. -/
theorem sliding_window_sixth :
    ∃ s, system.Reachable Advances s ∧ Advances s ("10.0.0.7", 60) ∧
      (checkAuthRateLimit s.attempts "10.0.0.7" 60).2 = false ∧
      (checkAuthRateLimit s.attempts "10.0.0.7" 61).2 = true ∧
      (within (acceptedTimes s.history "10.0.0.7") 0 60).length = 5 := by
  obtain ⟨s, hs, htest⟩ := TransitionSystem.exists_reachable_of_exec (M := system) (G := Advances)
    {} [("10.0.0.7", 0), ("10.0.0.7", 1), ("10.0.0.9", 2), ("10.0.0.7", 3), ("10.0.0.7", 4),
      ("10.0.0.7", 5)]
    (fun s ↦ Advances s ("10.0.0.7", 60) ∧
      (checkAuthRateLimit s.attempts "10.0.0.7" 60).2 = false ∧
      (checkAuthRateLimit s.attempts "10.0.0.7" 61).2 = true) rfl (by decide +kernel)
  obtain ⟨hnow, hrejected, hlater⟩ := of_decide_eq_true htest
  have hfull := (sliding_window hs hnow).1.1 hrejected
  rw [sub_self] at hfull
  exact ⟨s, hs, hnow, hrejected, hlater, hfull⟩

end

end LiveSTT.RateLimit
