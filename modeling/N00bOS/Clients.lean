import N00bOS.Machine

/-!
# A client of a shared server

A server handles the requests of several clients, in any order, on one state
(`serve`). What a client notices of the others is a question about two runs:
the answers it gets among them, and those it gets alone.

`Served` is the condition on single steps that settles it. A *view* is what a
client knows of the state. A request of the client, if it is one that its view
allows, is answered from the view alone and changes it in a known way; a
request of anybody else, if it returns, leaves the view as it was. Then the
client's answers are a function of its view and of its own requests (`alone`),
in every interleaving (`Served.answers`), and so they are what they are without
the others (`Served.serve_filter`). Both are inductions on the requests, in
which a step of the client is the first half of the condition and a step of
another the second.

Requests that the view does not allow are not covered, and neither are requests
of the others that fault: such a run ends there. So the condition on the others
is one about runs that return, and nothing has to be proved of what they
answer.

Clients, requests, answers, views and states are arbitrary types; an
application chooses what a view is, and that choice is where the work lies.
-/

namespace Clients

variable {ε σ ι Request Answer View : Type}

/-- **The answers** to a sequence of requests, each with the client it is from,
handled one after the other on one state. -/
def serve (handle : ι → Request → Machine ε σ Answer) :
    List (ι × Request) → Machine ε σ (List (ι × Answer))
  | [] => return []
  | (i, request) :: rest => do
    let answer ← handle i request
    let answers ← serve handle rest
    return (i, answer) :: answers

/-- A request that returns, and then the rest. -/
theorem serve_cons_ok {handle : ι → Request → Machine ε σ Answer} {i : ι}
    {request : Request} {rest : List (ι × Request)} {s s₁ s₂ : σ}
    {answer : Answer} {answers : List (ι × Answer)}
    (h : handle i request s = Except.ok (answer, s₁))
    (hrest : serve handle rest s₁ = Except.ok (answers, s₂)) :
    serve handle ((i, request) :: rest) s
      = Except.ok ((i, answer) :: answers, s₂) := by
  rw [serve, Machine.bind_ok h, Machine.bind_ok hrest]
  rfl

/-- The answers to the requests of one client, from its view. -/
def alone (reply : Request → View → Answer × View) :
    List Request → View → List Answer
  | [], _ => []
  | request :: rest, v =>
    (reply request v).1 :: alone reply rest (reply request v).2

/-- Each request of a sequence is allowed by the view it is made in. -/
def Allowed (reply : Request → View → Answer × View)
    (ok : Request → View → Prop) : List Request → View → Prop
  | [], _ => True
  | request :: rest, v =>
    ok request v ∧ Allowed reply ok rest (reply request v).2

/-- The requests of a client, in order. -/
def requestsOf [DecidableEq ι] (i : ι) (requests : List (ι × Request)) :
    List Request :=
  (requests.filter fun r => r.1 = i).map Prod.snd

section Requests

variable [DecidableEq ι] {i : ι}

theorem requestsOf_cons_self (request : Request)
    (rest : List (ι × Request)) :
    requestsOf i ((i, request) :: rest) = request :: requestsOf i rest := by
  rw [requestsOf, List.filter_cons_of_pos (by simp)]
  rfl

theorem requestsOf_cons_of_ne {j : ι} (hj : j ≠ i) (request : Request)
    (rest : List (ι × Request)) :
    requestsOf i ((j, request) :: rest) = requestsOf i rest := by
  rw [requestsOf, List.filter_cons_of_neg (by simpa using hj)]
  rfl

/-- The requests of a client, with the client. -/
theorem filter_eq_map (requests : List (ι × Request)) :
    (requests.filter fun r => r.1 = i)
      = (requestsOf i requests).map (Prod.mk i) := by
  rw [requestsOf, List.map_map]
  refine (List.map_id _).symm.trans (List.map_congr_left fun r hr => ?_)
  have hi : r.1 = i := of_decide_eq_true (List.mem_filter.mp hr).2
  exact Prod.ext hi rfl

end Requests

/-- **A client that depends on its view only**: `shows v s` says that the
client has the view `v` in the state `s`. A request of its own that the view
allows returns the answer, and shows the view, that `reply` computes; a request
of another that returns shows the view still. All requests are those with
`proper`. -/
structure Served (handle : ι → Request → Machine ε σ Answer) (i : ι)
    (shows : View → σ → Prop) (reply : Request → View → Answer × View)
    (ok : Request → View → Prop) (proper : ι → Request → Prop) : Prop where
  /-- A request of the client is answered from the view. -/
  own : ∀ {v s} (request : Request), shows v s → ok request v →
    proper i request →
    ∃ s', handle i request s = Except.ok ((reply request v).1, s')
      ∧ shows (reply request v).2 s'
  /-- A request of somebody else leaves the view alone. -/
  other : ∀ {v s j request answer s'}, j ≠ i → shows v s → proper j request →
    handle j request s = Except.ok (answer, s') → shows v s'

namespace Served

variable {handle : ι → Request → Machine ε σ Answer} {i : ι}
  {shows : View → σ → Prop} {reply : Request → View → Answer × View}
  {ok : Request → View → Prop} {proper : ι → Request → Prop}
  (h : Served handle i shows reply ok proper)

include h

/-- **The client's requests alone** are answered from its view. Here the run is
known to return, since each of the client's requests does as long as it is
allowed. -/
theorem serve_alone (requests : List Request) {v : View} {s : σ}
    (hs : shows v s) (hok : Allowed reply ok requests v)
    (hproper : ∀ r ∈ requests, proper i r) :
    ∃ s', serve handle (requests.map (Prod.mk i)) s
      = Except.ok ((alone reply requests v).map (Prod.mk i), s') := by
  induction requests generalizing v s with
  | nil => exact ⟨s, rfl⟩
  | cons request rest ih =>
    obtain ⟨s₁, hrun, hs₁⟩ :=
      h.own request hs hok.1 (hproper _ List.mem_cons_self)
    obtain ⟨s₂, hrest⟩ := ih hs₁ hok.2 fun r hr =>
      hproper r (List.mem_cons_of_mem _ hr)
    exact ⟨s₂, serve_cons_ok hrun hrest⟩

variable [DecidableEq ι]

/-- **Among the others**, in a run that returns, the client gets the same
answers. The proof goes request by request: one of the client's own is answered
from its view, and one of another leaves the view as it is. -/
theorem answers (requests : List (ι × Request)) {v : View} {s s' : σ}
    (hs : shows v s) (hok : Allowed reply ok (requestsOf i requests) v)
    (hproper : ∀ r ∈ requests, proper r.1 r.2) {given : List (ι × Answer)}
    (hrun : serve handle requests s = Except.ok (given, s')) :
    given.filter (fun a => a.1 = i)
      = (alone reply (requestsOf i requests) v).map (Prod.mk i) := by
  induction requests generalizing v s given with
  | nil =>
    obtain ⟨rfl, -⟩ := Prod.mk.inj (Except.ok.inj hrun)
    rfl
  | cons request rest ih =>
    obtain ⟨j, request⟩ := request
    obtain ⟨answer, s₁, hfirst, hrun₁⟩ := Machine.bind_eq_ok.mp hrun
    obtain ⟨later, s₂, hrest, hend⟩ := Machine.bind_eq_ok.mp hrun₁
    obtain ⟨rfl, rfl⟩ := Prod.mk.inj (Except.ok.inj hend)
    have hproper₁ : ∀ r ∈ rest, proper r.1 r.2 := fun r hr =>
      hproper r (List.mem_cons_of_mem _ hr)
    by_cases hj : j = i
    · subst hj
      rw [requestsOf_cons_self] at hok ⊢
      obtain ⟨s₁', hown, hs₁⟩ :=
        h.own request hs hok.1 (hproper _ List.mem_cons_self)
      obtain ⟨rfl, rfl⟩ :=
        Prod.mk.inj (Except.ok.inj (hfirst.symm.trans hown))
      rw [List.filter_cons_of_pos (by simp), ih hs₁ hok.2 hproper₁ hrest]
      rfl
    · rw [requestsOf_cons_of_ne hj] at hok ⊢
      have hs₁ := h.other hj hs (hproper _ List.mem_cons_self) hfirst
      rw [List.filter_cons_of_neg (by simpa using hj),
        ih hs₁ hok hproper₁ hrest]

/-- **A client does not notice the others.** In a run that returns, the answers
to its requests are what they are in the run of its requests alone, which
returns too. -/
theorem serve_filter (requests : List (ι × Request)) {v : View} {s s' : σ}
    (hs : shows v s) (hok : Allowed reply ok (requestsOf i requests) v)
    (hproper : ∀ r ∈ requests, proper r.1 r.2) {given : List (ι × Answer)}
    (hrun : serve handle requests s = Except.ok (given, s')) :
    ∃ s'', serve handle (requests.filter fun r => r.1 = i) s
      = Except.ok (given.filter (fun a => a.1 = i), s'') := by
  have hown : ∀ r ∈ requestsOf i requests, proper i r := by
    intro r hr
    obtain ⟨⟨j, r⟩, hmem, rfl⟩ := List.mem_map.mp hr
    obtain ⟨hall, hj⟩ := List.mem_filter.mp hmem
    obtain rfl : j = i := of_decide_eq_true hj
    exact hproper _ hall
  obtain ⟨s'', halone⟩ := h.serve_alone _ hs hok hown
  refine ⟨s'', ?_⟩
  rw [filter_eq_map, halone, h.answers requests hs hok hproper hrun]

end Served

end Clients
