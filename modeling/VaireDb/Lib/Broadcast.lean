import Mathlib.Data.List.TakeWhile
import Mathlib.Tactic.Common

/-!
# Sends to many sites, and their undoing

An operation is sent to some of many sites, each with a state of its own.  A send may
miss its site, it may be executed and answered, or it may be executed while its answer
is lost.  The sends of one operation carry one id, and a site that has executed an id
repeats its answer without executing it again.

Operations with different labels change different parts of a state.  A *view* shows
the part of each label, and the operations of some labels are *local* if each changes
only its own part among theirs and decides from that part alone.  What a broadcast
does to one part of one site then depends only on the sends of that label to that
site.
-/

namespace VaireDb.Lib

open List Function

/-- What becomes of one send. -/
inductive Delivery where
  | missed
  | answered
  | lost
  deriving DecidableEq, Repr

structure Send (Label Site : Type*) where
  label : Label
  site : Site
  delivery : Delivery

/-- The sites' states, and what each has answered to an operation. -/
structure Exchange (Label Site State : Type*) where
  answers : Label → Site → Option Bool
  sites : Site → State

variable {Label Site State View : Type*}

/-- An execution that a site may refuse. -/
def attempt (execute : State → Option State) (state : State) : State :=
  (execute state).getD state

def Exchange.start (sites : Site → State) : Exchange Label Site State where
  answers := fun _ _ => none
  sites := sites

section Loops

variable [DecidableEq Label] [DecidableEq Site]
namespace Exchange

variable (execute : Label → State → Option State)

/-- Record what a site answers to an operation. -/
def answer (exchange : Exchange Label Site State) (label : Label) (site : Site)
    (result : Bool) : Label → Site → Option Bool :=
  Function.update exchange.answers label
    (Function.update (exchange.answers label) site (some result))

/-- One send, and whether it was seen to succeed. -/
def send (exchange : Exchange Label Site State) (request : Send Label Site) :
    Bool × Exchange Label Site State :=
  if request.delivery = .missed then
    (false, exchange)
  else
    match exchange.answers request.label request.site with
    | some result => (result && request.delivery = .answered, exchange)
    | none =>
      match execute request.label (exchange.sites request.site) with
      | none =>
        (false, { exchange with
          answers := exchange.answer request.label request.site false })
      | some after =>
        (request.delivery = .answered,
          { answers := exchange.answer request.label request.site true
            sites := Function.update exchange.sites request.site after })

def sendAll : Exchange Label Site State → List (Send Label Site) →
    List (Send Label Site × Bool) × Exchange Label Site State
  | exchange, [] => ([], exchange)
  | exchange, request :: requests =>
    let (seen, exchange) := exchange.send execute request
    let (rest, exchange) := sendAll exchange requests
    ((request, seen) :: rest, exchange)

/-- Send until one is not seen to succeed.  The sends that were, the one that was
not, and what became of the sites. -/
def sendUntil : Exchange Label Site State → List (Send Label Site) →
    List (Send Label Site) × Option (Send Label Site) × Exchange Label Site State
  | exchange, [] => ([], none, exchange)
  | exchange, request :: requests =>
    let (seen, exchange) := exchange.send execute request
    if seen then
      let (done, stopped, exchange) := sendUntil exchange requests
      (request :: done, stopped, exchange)
    else
      ([], some request, exchange)

end Exchange

/-- Sends under ids of their own. -/
def undoAll (undo : Label → State → Option State) :
    List (Send Label Site) → (Site → State) → Site → State
  | [], sites => sites
  | request :: requests, sites =>
    undoAll undo requests (if request.delivery = .missed then sites
      else Function.update sites request.site (attempt (undo request.label) (sites request.site)))

end Loops

/-- The operations of some labels change only the part their label shows, and decide
from it. -/
structure Local (among : Label → Prop) (view : Label → State → View)
    (execute : Label → State → Option State) (act : Label → View → Option View) :
    Prop where
  own : ∀ label, among label → ∀ state,
    (execute label state).map (view label) = act label (view label state)
  others : ∀ label other, among label → among other → other ≠ label →
    ∀ state after, execute label state = some after → view other after = view other state

variable {label : Label}

namespace Local

variable {among : Label → Prop} {view : Label → State → View}
  {execute : Label → State → Option State} {act : Label → View → Option View}

theorem attempt_others (locality : Local among view execute act) {other : Label}
    (member : among label) (alsoMember : among other) (different : other ≠ label) (state : State) :
    view other (attempt (execute label) state) = view other state := by
  unfold attempt
  cases executed : execute label state with
  | none => rfl
  | some after =>
    exact locality.others label other member alsoMember different state after executed

end Local

/-- Some send of the operation got to the site. -/
def Delivered (requests : List (Send Label Site)) (label : Label) (site : Site) : Prop :=
  ∃ request ∈ requests, request.label = label ∧ request.site = site ∧ request.delivery ≠ .missed

/-- The send is answered by a site that does not refuse it. -/
def Succeeds (act : Label → View → Option View) (view : Label → State → View)
    (before : Site → State) (request : Send Label Site) : Prop :=
  request.delivery = .answered ∧
    (act request.label (view request.label (before request.site))).isSome

instance (act : Label → View → Option View) (view : Label → State → View)
    (before : Site → State) (request : Send Label Site) :
    Decidable (Succeeds act view before request) :=
  inferInstanceAs (Decidable (_ ∧ _))

/-- Each part is as it was before, or as one execution leaves it. -/
structure Tracks (among : Label → Prop) (act : Label → View → Option View)
    (view : Label → State → View) (before : Site → State)
    (exchange : Exchange Label Site State) : Prop where
  untouched : ∀ label site, among label → exchange.answers label site = none →
    view label (exchange.sites site) = view label (before site)
  executed : ∀ label site result, among label → exchange.answers label site = some result →
    result = (act label (view label (before site))).isSome ∧
      view label (exchange.sites site) = attempt (act label) (view label (before site))

variable {among : Label → Prop} {view : Label → State → View}

theorem Tracks.start {act : Label → View → Option View} (before : Site → State) :
    Tracks among act view before (Exchange.start before) where
  untouched := fun _ _ _ _ => rfl
  executed := fun _ _ _ _ impossible => by cases impossible

variable {site : Site} {request : Send Label Site} {result : Bool} {sites : Site → State}

section Sends

variable [DecidableEq Label] [DecidableEq Site] {among : Label → Prop} {view : Label → State → View}
  {execute : Label → State → Option State} {act : Label → View → Option View}
  {before : Site → State} {exchange : Exchange Label Site State}

namespace Exchange

theorem answer_self (exchange : Exchange Label Site State) (label : Label) (site : Site)
    (result : Bool) : exchange.answer label site result label site = some result := by simp [answer]

theorem answer_other (exchange : Exchange Label Site State) {other : Label}
    {elsewhere : Site} (result : Bool) (different : ¬(other = label ∧ elsewhere = site)) :
    exchange.answer label site result other elsewhere = exchange.answers other elsewhere := by
  unfold answer
  by_cases sameLabel : other = label
  · subst sameLabel
    rw [update_self, update_of_ne (fun same => different ⟨rfl, same⟩)]
  · rw [update_of_ne sameLabel]

theorem answers_send (exchange : Exchange Label Site State) (request : Send Label Site)
    (label : Label) (site : Site) :
    (((exchange.send execute request).2.answers label site).isSome = true) ↔
      (exchange.answers label site).isSome ∨
        request.label = label ∧ request.site = site ∧ request.delivery ≠ .missed := by
  have answered : ∀ result : Bool,
      ((exchange.answer request.label request.site result label site).isSome = true) ↔
        (exchange.answers label site).isSome ∨
          request.label = label ∧ request.site = site := by
    intro result
    by_cases same : label = request.label ∧ site = request.site
    · rw [same.1, same.2, answer_self]
      simp
    · rw [answer_other exchange result same]
      have : ¬(request.label = label ∧ request.site = site) :=
        fun found => same ⟨found.1.symm, found.2.symm⟩
      tauto
  unfold send
  split
  · next missed => simp [missed]
  · rename_i got
    split
    · rename_i result known
      constructor
      · exact Or.inl
      · rintro (some | ⟨rfl, rfl, _⟩)
        · exact some
        · simp [known]
    · split
      · simpa [got] using answered false
      · simpa [got] using answered true

end Exchange

theorem Tracks.send_seen (locality : Local among view execute act)
    (tracks : Tracks among act view before exchange) (member : among request.label) :
    (exchange.send execute request).1 = decide (Succeeds act view before request) := by
  unfold Exchange.send Succeeds
  split
  · next missed => simp [missed]
  · split
    · rename_i result known
      rw [(tracks.executed _ _ _ member known).1]
      by_cases answered : request.delivery = .answered <;> simp [answered]
    · rename_i unknown
      have same := congrArg Option.isSome (locality.own _ member (exchange.sites request.site))
      rw [Option.isSome_map, tracks.untouched _ _ member unknown] at same
      split
      · rename_i refused
        rw [refused] at same
        simp [← same]
      · rename_i after done
        rw [done] at same
        simp [← same]

theorem Tracks.answer (tracks : Tracks among act view before exchange)
    (own : result = (act label (view label (before site))).isSome ∧
      view label (sites site) = attempt (act label) (view label (before site)))
    (others : ∀ other elsewhere, among other → ¬(other = label ∧ elsewhere = site) →
      view other (sites elsewhere) = view other (exchange.sites elsewhere)) :
    Tracks among act view before
      { answers := exchange.answer label site result, sites := sites } := by
  constructor
  · intro other elsewhere member free
    by_cases here : other = label ∧ elsewhere = site
    · obtain ⟨rfl, rfl⟩ := here
      exact absurd free (by simp [Exchange.answer_self])
    · have unknown := (exchange.answer_other result here).symm.trans free
      exact (others other elsewhere member here).trans (tracks.untouched _ _ member unknown)
  · intro other elsewhere found member known
    by_cases here : other = label ∧ elsewhere = site
    · obtain ⟨rfl, rfl⟩ := here
      cases (exchange.answer_self other elsewhere result).symm.trans known
      exact own
    · have already := (exchange.answer_other result here).symm.trans known
      obtain ⟨right, shown⟩ := tracks.executed _ _ _ member already
      exact ⟨right, (others other elsewhere member here).trans shown⟩

theorem Tracks.send (locality : Local among view execute act)
    (tracks : Tracks among act view before exchange) (member : among request.label) :
    Tracks among act view before (exchange.send execute request).2 := by
  unfold Exchange.send
  split
  · exact tracks
  · split
    · exact tracks
    · rename_i unknown
      have same := tracks.untouched _ _ member unknown
      have own := locality.own request.label member (exchange.sites request.site)
      rw [same] at own
      split
      · rename_i refused
        rw [refused, Option.map_none] at own
        refine tracks.answer ⟨?_, ?_⟩ fun _ _ _ _ => rfl
        · rw [← own]
          rfl
        · unfold attempt
          rwa [← own]
      · rename_i after done
        rw [done, Option.map_some] at own
        refine tracks.answer ⟨?_, ?_⟩ ?_
        · rw [← own]
          rfl
        · unfold attempt
          rw [← own, update_self]
          rfl
        · intro other elsewhere alsoMember different
          by_cases here : elsewhere = request.site
          · subst here
            rw [update_self]
            exact locality.others _ _ member alsoMember
              (fun equal => different ⟨equal, rfl⟩) _ _ done
          · rw [update_of_ne here]

variable {requests : List (Send Label Site)}

theorem sendAll_spec (locality : Local among view execute act)
    (tracks : Tracks among act view before exchange)
    (within : ∀ request ∈ requests, among request.label) :
    (exchange.sendAll execute requests).1 =
        requests.map (fun request => (request, decide (Succeeds act view before request))) ∧
      Tracks among act view before (exchange.sendAll execute requests).2 := by
  induction requests generalizing exchange with
  | nil => exact ⟨rfl, tracks⟩
  | cons request requests induction =>
    obtain ⟨first, later⟩ := forall_mem_cons.mp within
    obtain ⟨replies, after⟩ := induction (tracks.send locality first) later
    refine ⟨?_, after⟩
    rw [map_cons, ← replies, ← tracks.send_seen locality first]
    rfl

theorem answers_sendAll (exchange : Exchange Label Site State)
    (requests : List (Send Label Site)) (label : Label) (site : Site) :
    (((exchange.sendAll execute requests).2.answers label site).isSome = true) ↔
      (exchange.answers label site).isSome ∨ Delivered requests label site := by
  induction requests generalizing exchange with
  | nil => simp [Exchange.sendAll, Delivered]
  | cons request requests induction =>
    have rest := induction (exchange.send execute request).2
    rw [Exchange.answers_send] at rest
    have delivered : Delivered (request :: requests) label site ↔
        (request.label = label ∧ request.site = site ∧ request.delivery ≠ .missed) ∨
          Delivered requests label site := by simp [Delivered]
    rwa [delivered, ← or_assoc]

theorem view_sendAll_of_not_delivered (locality : Local among view execute act)
    (within : ∀ request ∈ requests, among request.label)
    (member : among label) (none : ¬Delivered requests label site) :
    view label (((Exchange.start before).sendAll execute requests).2.sites site) =
      view label (before site) := by
  obtain ⟨_, after⟩ := sendAll_spec locality (Tracks.start before) within
  refine after.untouched label site member (Option.not_isSome_iff_eq_none.mp ?_)
  rw [answers_sendAll]
  rintro (impossible | delivered)
  · cases impossible
  · exact none delivered

/-- A part that some send got to is as one execution leaves it. -/
theorem view_sendAll_of_delivered (locality : Local among view execute act)
    (within : ∀ request ∈ requests, among request.label)
    (member : among label) (delivered : Delivered requests label site) :
    view label (((Exchange.start before).sendAll execute requests).2.sites site) =
      attempt (act label) (view label (before site)) := by
  obtain ⟨_, after⟩ := sendAll_spec locality (Tracks.start before) within
  have answered : (((Exchange.start before).sendAll execute requests).2.answers
      label site).isSome := (answers_sendAll _ _ _ _).mpr (.inr delivered)
  obtain ⟨result, known⟩ := Option.isSome_iff_exists.mp answered
  exact (after.executed label site result member known).2

/-- Sending until a failure is sending everything up to it. -/
theorem sendUntil_eq (locality : Local among view execute act)
    (tracks : Tracks among act view before exchange)
    (within : ∀ request ∈ requests, among request.label) :
    let done := requests.takeWhile fun request => Succeeds act view before request
    let stopped := requests.find? fun request => ¬Succeeds act view before request
    exchange.sendUntil execute requests =
      (done, stopped, (exchange.sendAll execute (done ++ stopped.toList)).2) := by
  induction requests generalizing exchange with
  | nil => rfl
  | cons request requests induction =>
    obtain ⟨first, later⟩ := forall_mem_cons.mp within
    have seen := tracks.send_seen locality first
    have rest := induction (tracks.send locality first) later
    by_cases succeeds : Succeeds act view before request
    · rw [decide_eq_true succeeds] at seen
      simp only [Exchange.sendUntil, seen, if_true, rest]
      rw [takeWhile_cons_of_pos (by simpa using succeeds),
        find?_cons_of_neg (by simpa using succeeds)]
      rfl
    · rw [decide_eq_false succeeds] at seen
      simp only [Exchange.sendUntil, seen]
      rw [takeWhile_cons_of_neg (by simpa using succeeds),
        find?_cons_of_pos (by simpa using succeeds)]
      rfl

end Sends

/-- The operations of some labels change only the part their label shows, and an
execution that is not refused has its effect there. -/
structure Effects (among : Label → Prop) (view : Label → State → View)
    (execute : Label → State → Option State) (effect : Label → View → View → Prop) :
    Prop where
  own : ∀ label, among label → ∀ state after, execute label state = some after →
    effect label (view label state) (view label after)
  others : ∀ label other, among label → among other → other ≠ label →
    ∀ state after, execute label state = some after → view other after = view other state

/-- The site has executed the operation. -/
def Exchange.Executed (exchange : Exchange Label Site State) (label : Label) (site : Site) : Prop :=
  exchange.answers label site = some true

/-- Each part is as it was before, or as an execution has left it. -/
structure Follows (among : Label → Prop) (effect : Label → View → View → Prop)
    (view : Label → State → View) (before : Site → State)
    (exchange : Exchange Label Site State) : Prop where
  unexecuted : ∀ label site, among label → ¬exchange.Executed label site →
    view label (exchange.sites site) = view label (before site)
  executed : ∀ label site, among label → exchange.Executed label site →
    effect label (view label (before site)) (view label (exchange.sites site))

theorem Follows.start {effect : Label → View → View → Prop} (before : Site → State) :
    Follows among effect view before (Exchange.start before) where
  unexecuted := fun _ _ _ _ => rfl
  executed := fun _ _ _ impossible => by cases impossible

section Refusals

variable [DecidableEq Label] [DecidableEq Site] {among : Label → Prop} {view : Label → State → View}
  {execute : Label → State → Option State} {effect : Label → View → View → Prop}
  {before : Site → State} {exchange : Exchange Label Site State} {requests : List (Send Label Site)}

namespace Exchange

theorem answers_send_of_some (known : exchange.answers label site = some result) :
    (exchange.send execute request).2.answers label site = some result := by
  have kept : exchange.answers request.label request.site = none → ∀ fresh : Bool,
      exchange.answer request.label request.site fresh label site = some result := by
    intro unknown fresh
    refine (exchange.answer_other fresh ?_).trans known
    rintro ⟨rfl, rfl⟩
    cases unknown.symm.trans known
  unfold send
  split
  · exact known
  · split
    · exact known
    · rename_i unknown
      split
      · exact kept unknown false
      · exact kept unknown true

theorem answers_sendAll_of_some (known : exchange.answers label site = some result) :
    (exchange.sendAll execute requests).2.answers label site = some result := by
  induction requests generalizing exchange with
  | nil => exact known
  | cons request requests induction => exact induction (answers_send_of_some known)

/-- A send is seen to succeed if it is answered by a site that has executed it. -/
theorem send_seen_iff : (exchange.send execute request).1 = true ↔ request.delivery = .answered ∧
        (exchange.send execute request).2.Executed request.label request.site := by
  unfold send Executed
  split
  · next missed => simp [missed]
  · split
    · next result known => cases result <;> simp [known]
    · split
      · simp [answer_self]
      · simp [answer_self]

end Exchange

theorem Follows.answer (follows : Follows among effect view before exchange)
    (refused : result = false → view label (sites site) = view label (before site))
    (accepted : result = true → effect label (view label (before site)) (view label (sites site)))
    (others : ∀ other elsewhere, among other → ¬(other = label ∧ elsewhere = site) →
      view other (sites elsewhere) = view other (exchange.sites elsewhere)) :
    Follows among effect view before
      { answers := exchange.answer label site result, sites := sites } := by
  constructor
  · intro other elsewhere member unexecuted
    by_cases here : other = label ∧ elsewhere = site
    · obtain ⟨rfl, rfl⟩ := here
      refine refused (Bool.eq_false_iff.mpr fun done => unexecuted ?_)
      exact (exchange.answer_self _ _ _).trans (congrArg some done)
    · rw [others other elsewhere member here]
      refine follows.unexecuted _ _ member fun executed => unexecuted ?_
      exact (exchange.answer_other result here).trans executed
  · intro other elsewhere member executed
    by_cases here : other = label ∧ elsewhere = site
    · obtain ⟨rfl, rfl⟩ := here
      exact accepted (Option.some.inj ((exchange.answer_self _ _ _).symm.trans executed))
    · rw [others other elsewhere member here]
      exact follows.executed _ _ member ((exchange.answer_other result here).symm.trans executed)

theorem Follows.send (effects : Effects among view execute effect)
    (follows : Follows among effect view before exchange) (member : among request.label) :
    Follows among effect view before (exchange.send execute request).2 := by
  unfold Exchange.send
  split
  · exact follows
  · split
    · exact follows
    · rename_i unknown
      have same : view request.label (exchange.sites request.site) =
          view request.label (before request.site) := by
        refine follows.unexecuted _ _ member fun executed => ?_
        cases unknown.symm.trans executed
      split
      · exact follows.answer (fun _ => same)
          (fun impossible => by cases impossible) fun _ _ _ _ => rfl
      · rename_i after done
        have effect := effects.own _ member _ _ done
        rw [same] at effect
        refine follows.answer (fun impossible => by cases impossible) (fun _ => ?_) ?_
        · rwa [update_self]
        · intro other elsewhere alsoMember different
          by_cases here : elsewhere = request.site
          · subst here
            rw [update_self]
            exact effects.others _ _ member alsoMember
              (fun equal => different ⟨equal, rfl⟩) _ _ done
          · rw [update_of_ne here]

theorem Follows.sendAll (effects : Effects among view execute effect)
    (follows : Follows among effect view before exchange)
    (within : ∀ request ∈ requests, among request.label) :
    Follows among effect view before (exchange.sendAll execute requests).2 := by
  induction requests generalizing exchange with
  | nil => exact follows
  | cons request requests induction =>
    obtain ⟨first, later⟩ := forall_mem_cons.mp within
    exact induction (follows.send effects first) later

/-- What every execution keeps holds at every site afterwards. -/
theorem sendAll_invariant (Holds : State → Prop)
    (kept : ∀ label state after, Holds state → execute label state = some after → Holds after)
    (initially : ∀ site, Holds (exchange.sites site)) (requests : List (Send Label Site)) :
    ∀ site, Holds ((exchange.sendAll execute requests).2.sites site) := by
  induction requests generalizing exchange with
  | nil => exact initially
  | cons request requests induction =>
    have next : ∀ site, Holds ((exchange.send execute request).2.sites site) := by
      intro site
      unfold Exchange.send
      split
      · exact initially site
      · split
        · exact initially site
        · split
          · exact initially site
          · rename_i after executed
            simp only [update_apply]
            split
            · exact kept _ _ _ (initially request.site) executed
            · exact initially site
    exact induction next

/-- The replies say which sends were answered by a site that has executed them. -/
theorem replies_sendAll (execute : Label → State → Option State)
    (exchange : Exchange Label Site State) (requests : List (Send Label Site)) :
    (exchange.sendAll execute requests).1 = requests.map fun request =>
      (request, decide (request.delivery = .answered ∧
        (exchange.sendAll execute requests).2.answers request.label request.site = some true)) := by
  induction requests generalizing exchange with
  | nil => rfl
  | cons request requests induction =>
    refine congrArg₂ cons (Prod.ext rfl ?_) (induction _)
    refine Bool.eq_iff_iff.mpr (Exchange.send_seen_iff.trans ?_)
    rw [decide_eq_true_iff]
    refine and_congr_right fun answered => ?_
    have known : ((exchange.send execute request).2.answers request.label request.site).isSome := by
      rw [Exchange.answers_send]
      exact .inr ⟨rfl, rfl, by rw [answered]; decide⟩
    obtain ⟨result, stored⟩ := Option.isSome_iff_exists.mp known
    have final : ((exchange.send execute request).2.sendAll execute requests).2.answers
        request.label request.site = some result :=
      Exchange.answers_sendAll_of_some stored
    have same : (exchange.sendAll execute (request :: requests)).2 =
        ((exchange.send execute request).2.sendAll execute requests).2 := rfl
    unfold Exchange.Executed
    rw [stored, same, final]

end Refusals

/-- The same sends, each with a delivery that depends on its site and position. -/
def redeliver (delivery : Site → Nat → Delivery) (requests : List (Send Label Site)) :
    List (Send Label Site) :=
  requests.zipIdx.map fun (request, position) =>
    { request with delivery := delivery request.site position }

variable {delivery : Site → Nat → Delivery} {requests : List (Send Label Site)}

theorem label_mem_of_mem_redeliver (within : ∀ request ∈ requests, among request.label) :
    ∀ request ∈ redeliver delivery requests, among request.label := by
  intro request member
  obtain ⟨⟨original, position⟩, found, rfl⟩ := mem_map.mp member
  exact within original (fst_mem_of_mem_zipIdx found)

theorem delivered_redeliver (reachable : ∀ position, delivery site position ≠ .missed) :
    Delivered (redeliver delivery requests) label site ↔
      ∃ request ∈ requests, request.label = label ∧ request.site = site := by
  constructor
  · rintro ⟨request, member, sameLabel, sameSite, _⟩
    obtain ⟨⟨original, position⟩, found, rfl⟩ := mem_map.mp member
    exact ⟨original, fst_mem_of_mem_zipIdx found, sameLabel, sameSite⟩
  · rintro ⟨request, member, rfl, rfl⟩
    obtain ⟨position, below, found⟩ := getElem_of_mem member
    refine ⟨{ request with delivery := delivery request.site position }, ?_, rfl, rfl,
      reachable position⟩
    refine mem_map.mpr ⟨(request, position), ?_, rfl⟩
    rw [mk_mem_zipIdx_iff_getElem?, getElem?_eq_getElem below, found]

section Undoing

variable [DecidableEq Site] {among : Label → Prop} {view : Label → State → View}
  {execute : Label → State → Option State} {act : Label → View → Option View}
  {before : Site → State} {requests : List (Send Label Site)}

theorem view_undoAll_of_not_delivered (locality : Local among view execute act)
    (within : ∀ request ∈ requests, among request.label)
    (member : among label) (none : ¬Delivered requests label site) :
    view label (undoAll execute requests before site) = view label (before site) := by
  induction requests generalizing before with
  | nil => rfl
  | cons request requests induction =>
    have rest : ¬Delivered requests label site :=
      fun ⟨found, inRest, shape⟩ => none ⟨found, mem_cons_of_mem _ inRest, shape⟩
    obtain ⟨first, later⟩ := forall_mem_cons.mp within
    rw [undoAll, induction later rest]
    split
    · rfl
    · rename_i got
      by_cases here : site = request.site
      · subst here
        rw [update_self]
        refine locality.attempt_others first member ?_ _
        intro same
        exact none ⟨request, mem_cons_self .., same.symm, rfl, got⟩
      · rw [update_of_ne here]

/-- Undoing twice is undoing once, so a part that some send got to is as one undoing
leaves it. -/
theorem view_undoAll_of_delivered (locality : Local among view execute act)
    (within : ∀ request ∈ requests, among request.label) (member : among label)
    (idempotent : ∀ shown, attempt (act label) (attempt (act label) shown) =
      attempt (act label) shown) (delivered : Delivered requests label site) :
    view label (undoAll execute requests before site) =
      attempt (act label) (view label (before site)) := by
  induction requests generalizing before with
  | nil =>
    obtain ⟨_, impossible, _⟩ := delivered
    cases impossible
  | cons request requests induction =>
    obtain ⟨first, later⟩ := forall_mem_cons.mp within
    rw [undoAll]
    by_cases here : request.label = label ∧ request.site = site ∧ request.delivery ≠ .missed
    · obtain ⟨rfl, rfl, got⟩ := here
      rw [if_neg got]
      have once : view request.label (update before request.site
          (attempt (execute request.label) (before request.site)) request.site) =
          attempt (act request.label) (view request.label (before request.site)) := by
        unfold attempt
        rw [update_self, ← locality.own request.label first]
        cases execute request.label (before request.site) <;> rfl
      by_cases again : Delivered requests request.label request.site
      · rw [induction later again, once, idempotent]
      · rw [view_undoAll_of_not_delivered locality later member again, once]
    · have rest : Delivered requests label site := by
        obtain ⟨found, inAll, shape⟩ := delivered
        rcases mem_cons.mp inAll with rfl | inRest
        · exact absurd shape here
        · exact ⟨found, inRest, shape⟩
      rw [induction later rest]
      split
      · rfl
      · rename_i got
        by_cases same : site = request.site
        · subst same
          rw [update_self]
          refine congrArg _ (locality.attempt_others first member ?_ _)
          intro equal
          exact here ⟨equal.symm, rfl, got⟩
        · rw [update_of_ne same]

end Undoing

end VaireDb.Lib
