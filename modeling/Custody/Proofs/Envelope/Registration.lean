import Custody.Envelope.Registry
import Mathlib.Data.List.Nodup

/-!
# Histories of registrations

A registry is what the registrations with it have made of it. This is said by a log, the bindings
that were asked for in their order: a registry `Shows` a log if every type URL has the decoder that
the log has for it first, and if the type URLs are listed as they first occur in the log. One
registration, accepted or refused, adds its binding to the log (`Shows.after`): a refused one asks
for a type URL that is in the log already, or for nothing, so logging it makes no difference.

For registries by name, a run of calls leads every registry to show the bindings that the calls on
it made, of those that were accepted (`shows_run`). `run_lawful` collects what this means in every
state that a run from fresh registries reaches: the first registration wins, bindings stay as they
are, a registration that is refused changes nothing, and registries do not affect each other.
-/

namespace Custody

variable {ι δ : Type}

/-- The binding that a registration asks for. A class without a type URL and a class of other things
ask for none. -/
def Registration.binding? : Registration δ → Option (String × δ)
  | .decoder typeUrl reader | .policyClass typeUrl reader => some (typeUrl, reader)
  | .untypedClass | .otherClass => none

namespace Registry

/-! ## One registry -/

/-- A registry has the bindings of a log. -/
structure Shows (r : Registry δ) (log : List (String × δ)) : Prop where
  /-- A type URL has the decoder that the log has for it first. -/
  find?_eq : ∀ typeUrl, r.find? typeUrl = log.lookup typeUrl
  /-- The type URLs are listed in the order in which they first occur in the log. -/
  typeUrls_eq : r.typeUrls = (log.map (·.1)).eraseDups
  /-- Each is listed once. -/
  nodup : r.typeUrls.Nodup

/-- A fresh registry has no bindings. -/
theorem shows_nil : (⟨[]⟩ : Registry δ).Shows [] :=
  ⟨fun _ => rfl, rfl, .nil⟩

/-- A type URL is listed exactly if it is bound. -/
theorem mem_typeUrls_iff {r : Registry δ} {typeUrl : String} :
    typeUrl ∈ r.typeUrls ↔ r.find? typeUrl ≠ none := by
  unfold typeUrls find?
  rw [Ne, List.lookup_eq_none_iff, List.mem_map, not_forall]
  constructor
  · rintro ⟨binding, mem, rfl⟩
    exact ⟨binding, fun differ => by simpa using differ mem⟩
  · rintro ⟨binding, same⟩
    by_contra absent
    apply same
    intro mem
    rw [bne_iff_ne]
    rintro rfl
    exact absent ⟨binding, mem, rfl⟩

variable [DecidableEq δ]

/-- The registry after a registration; one that is refused leaves it as it was. -/
def after (r : Registry δ) (registration : Registration δ) : Registry δ :=
  match r.register registration with
  | .ok next => next
  | .error _ => r

section

variable {r : Registry δ} {registration : Registration δ}

/-- A registration that asks for no binding is refused. -/
theorem register_of_none (asks : registration.binding? = none) :
    ∃ fault, r.register registration = .error fault := by
  cases registration with
  | decoder typeUrl reader => simp [Registration.binding?] at asks
  | policyClass typeUrl reader => simp [Registration.binding?] at asks
  | untypedClass => exact ⟨_, rfl⟩
  | otherClass => exact ⟨_, rfl⟩

variable {typeUrl : String} {decoder : δ}
  (asks : registration.binding? = some (typeUrl, decoder))
include asks

/-- A decoder and a class of policies are registered alike. -/
theorem register_eq_bind : r.register registration = r.bind typeUrl decoder := by
  cases registration with
  | decoder typeUrl' reader =>
    have same : (typeUrl', reader) = (typeUrl, decoder) := Option.some.inj asks
    obtain ⟨rfl, rfl⟩ := Prod.mk.inj same
    rfl
  | policyClass typeUrl' reader =>
    have same : (typeUrl', reader) = (typeUrl, decoder) := Option.some.inj asks
    obtain ⟨rfl, rfl⟩ := Prod.mk.inj same
    rfl
  | untypedClass => simp [Registration.binding?] at asks
  | otherClass => simp [Registration.binding?] at asks

/-- The binding is made if the type URL is free. -/
theorem register_of_free (free : r.find? typeUrl = none) :
    r.register registration = .ok ⟨r.bindings ++ [(typeUrl, decoder)]⟩ := by
  rw [register_eq_bind asks, bind, free]

/-- If the type URL has the decoder already, nothing changes. -/
theorem register_of_same (found : r.find? typeUrl = some decoder) :
    r.register registration = .ok r := by
  rw [register_eq_bind asks, bind, found]
  exact if_pos rfl

/-- If the type URL has another decoder, the registration is refused. -/
theorem register_of_other {bound : δ} (found : r.find? typeUrl = some bound)
    (other : bound ≠ decoder) : r.register registration = .error (.taken typeUrl) := by
  rw [register_eq_bind asks, bind, found]
  exact if_neg other

end

/-- A registration makes a registry show its binding, too, whether or not it is accepted. -/
theorem Shows.after {r : Registry δ} {log : List (String × δ)} (shows' : r.Shows log)
    (registration : Registration δ) :
    (r.after registration).Shows (log ++ registration.binding?.toList) := by
  obtain ⟨find, order, nodup⟩ := shows'
  cases asks : registration.binding? with
  | none =>
    obtain ⟨fault, refused⟩ := register_of_none (r := r) asks
    have same : r.after registration = r := by rw [Registry.after, refused]
    rw [same, Option.toList_none, List.append_nil]
    exact ⟨find, order, nodup⟩
  | some binding =>
    obtain ⟨typeUrl, decoder⟩ := binding
    rw [Option.toList_some]
    cases found : r.find? typeUrl with
    | none =>
      have made : r.after registration = ⟨r.bindings ++ [(typeUrl, decoder)]⟩ := by
        rw [Registry.after, register_of_free asks found]
      have new : typeUrl ∉ r.typeUrls := fun mem => mem_typeUrls_iff.1 mem found
      have listed : (r.after registration).typeUrls = r.typeUrls ++ [typeUrl] := by
        rw [made, typeUrls, typeUrls, List.map_append, List.map_singleton]
      refine ⟨fun other => ?_, ?_, ?_⟩
      · rw [made, find?, List.lookup_append, List.lookup_append, ← find other, find?]
      · have unlogged : typeUrl ∉ log.map (·.1) := by
          rwa [order, List.mem_eraseDups] at new
        have kept : [typeUrl].removeAll (log.map (·.1)) = [typeUrl] := by
          simp [List.removeAll, unlogged]
        rw [listed, order, List.map_append, List.map_singleton, List.eraseDups_append, kept]
        rfl
      · rw [listed]
        rw [← List.concat_eq_append]
        exact nodup.concat new
    | some bound =>
      -- The type URL is in the log already, and what is asked for now comes too late.
      have same : r.after registration = r := by
        rw [Registry.after]
        by_cases again : bound = decoder
        · rw [register_of_same asks (again ▸ found)]
        · rw [register_of_other asks found again]
      have mem : typeUrl ∈ r.typeUrls := by
        rw [mem_typeUrls_iff, found]
        exact Option.some_ne_none bound
      rw [same]
      refine ⟨fun other => ?_, ?_, nodup⟩
      · rw [List.lookup_append, ← find other]
        by_cases own : other = typeUrl
        · rw [own, found, Option.some_or]
        · have differ : (other == typeUrl) = false := beq_eq_false_iff_ne.2 own
          rw [List.lookup_cons, differ, List.lookup_nil, Option.or_none]
      · have logged : typeUrl ∈ log.map (·.1) := by
          rwa [order, List.mem_eraseDups] at mem
        have dropped : [typeUrl].removeAll (log.map (·.1)) = [] := by
          simp [List.removeAll, logged]
        rw [order, List.map_append, List.map_singleton, List.eraseDups_append, dropped,
          List.eraseDups_nil, List.append_nil]

end Registry

namespace Registries

/-! ## Registries by name -/

/-- A registration with the registry of a name. -/
structure Call (ι δ : Type) where
  /-- The name of the registry. -/
  registry : ι
  /-- What is registered with it. -/
  registration : Registration δ

/-- Registries that nothing has been registered with. -/
def fresh : Registries ι δ := fun _ => ⟨[]⟩

variable [DecidableEq ι]

/-- The binding for which a call asks the registry of a name. -/
def Call.bindingIn? (name : ι) (call : Call ι δ) : Option (String × δ) :=
  if name = call.registry then call.registration.binding? else none

variable [DecidableEq δ]

/-- The registries after a call; one that is refused leaves them as they were. -/
def after (all : Registries ι δ) (call : Call ι δ) : Registries ι δ :=
  match all.register call.registry call.registration with
  | .ok next => next
  | .error _ => all

/-- The registries after a run of calls. -/
def run (all : Registries ι δ) (calls : List (Call ι δ)) : Registries ι δ :=
  calls.foldl after all

/-- The calls of a run that are accepted. -/
def accepted (all : Registries ι δ) : List (Call ι δ) → List (Call ι δ)
  | [] => []
  | call :: later =>
    match all.register call.registry call.registration with
    | .ok next => call :: accepted next later
    | .error _ => accepted all later

/-- The bindings that the accepted calls of a run make in the registry of a name. -/
def madeIn (name : ι) (all : Registries ι δ) (calls : List (Call ι δ)) : List (String × δ) :=
  (all.accepted calls).filterMap (Call.bindingIn? name)

section

variable {all : Registries ι δ} {name : ι} {registration : Registration δ}

/-- A registration that a registry accepts takes effect in that registry alone. -/
theorem register_of_accepted {r : Registry δ}
    (accepted : (all name).register registration = .ok r) :
    all.register name registration = .ok fun other => if other = name then r else all other := by
  rw [register, accepted]

/-- A registration that a registry refuses is refused. -/
theorem register_of_refused {fault : Registry.Fault}
    (refused : (all name).register registration = .error fault) :
    all.register name registration = .error fault := by
  rw [register, refused]

end

/-- A call is a registration with one registry, and leaves every other one as it was. -/
theorem after_apply (all : Registries ι δ) (call : Call ι δ) (name : ι) :
    all.after call name =
      if name = call.registry then (all name).after call.registration else all name := by
  cases outcome : (all call.registry).register call.registration with
  | error fault =>
    rw [after, register_of_refused outcome]
    split
    · next own => rw [own, Registry.after, outcome]
    · rfl
  | ok r =>
    rw [after, register_of_accepted outcome]
    show (if name = call.registry then r else all name) = _
    split
    · next own => rw [own, Registry.after, outcome]
    · rfl

/-- After a call, the registry of a name shows what the call binds in it, too. -/
theorem shows_after {all : Registries ι δ} {name : ι} {log : List (String × δ)}
    (shown : (all name).Shows log) (call : Call ι δ) :
    (all.after call name).Shows (log ++ (call.bindingIn? name).toList) := by
  rw [after_apply, Call.bindingIn?]
  split
  · exact shown.after call.registration
  · rw [Option.toList_none, List.append_nil]
    exact shown

/-- After a run, each registry shows the bindings that the accepted calls made in it, behind those
that it had before. -/
theorem shows_run {all : Registries ι δ} {logs : ι → List (String × δ)}
    (shown : ∀ name, (all name).Shows (logs name)) (calls : List (Call ι δ)) (name : ι) :
    (all.run calls name).Shows (logs name ++ madeIn name all calls) := by
  -- An accepted call moves its binding into the logs, and a refused one leaves the state as it was.
  induction calls generalizing all logs with
  | nil =>
    rw [madeIn, accepted, List.filterMap_nil, List.append_nil]
    exact shown name
  | cons call later ih =>
    have first : all.run (call :: later) = (all.after call).run later := rfl
    rw [first, madeIn, accepted]
    cases outcome : all.register call.registry call.registration with
    | error fault =>
      have same : all.after call = all := by rw [after, outcome]
      rw [same]
      exact ih shown
    | ok next =>
      have reached : all.after call = next := by rw [after, outcome]
      have moved := ih fun name => shows_after (shown name) call
      rw [reached] at moved ⊢
      have split : (call :: next.accepted later).filterMap (Call.bindingIn? name) =
          (call.bindingIn? name).toList ++ madeIn name next later := by
        rw [madeIn, List.filterMap_eq_flatMap_toList, List.filterMap_eq_flatMap_toList,
          List.flatMap_cons]
      rw [split, ← List.append_assoc]
      exact moved

/-- The laws of registries, in the state to which a run of calls on fresh ones has led. -/
structure Lawful (calls : List (Call ι δ)) (all : Registries ι δ) : Prop where
  /-- A type URL is bound to the decoder of the first accepted call that registered it with the
  registry. It is not bound if there is no such call. -/
  first_wins : ∀ name typeUrl, (all name).find? typeUrl = (madeIn name fresh calls).lookup typeUrl
  /-- The type URLs are listed in the order of those calls. -/
  in_order : ∀ name, (all name).typeUrls = ((madeIn name fresh calls).map (·.1)).eraseDups
  /-- Each is listed once. -/
  once : ∀ name, (all name).typeUrls.Nodup
  /-- Whatever is called later, a binding stays as it is. -/
  lasting : ∀ later name typeUrl decoder, (all name).find? typeUrl = some decoder →
    (all.run later name).find? typeUrl = some decoder
  /-- Whatever is called later, type URLs are only added at the end of the list. -/
  extended : ∀ later name, (all name).typeUrls <+: (all.run later name).typeUrls
  /-- A type URL that is not bound can be bound, as a decoder's or as a class's. -/
  free : ∀ name registration typeUrl decoder, registration.binding? = some (typeUrl, decoder) →
    (all name).find? typeUrl = none →
      ∃ next, all.register name registration = .ok next ∧
        (next name).find? typeUrl = some decoder
  /-- Binding a type URL to the decoder that it has succeeds and changes nothing. -/
  again : ∀ name registration typeUrl decoder, registration.binding? = some (typeUrl, decoder) →
    (all name).find? typeUrl = some decoder → all.register name registration = .ok all
  /-- Binding it to another one is refused. -/
  conflict : ∀ name registration typeUrl decoder bound,
    registration.binding? = some (typeUrl, decoder) → (all name).find? typeUrl = some bound →
      bound ≠ decoder → all.register name registration = .error (.taken typeUrl)
  /-- Registering a class of other things is refused. -/
  other_class : ∀ name, all.register name .otherClass = .error .notAPolicyClass
  /-- A call that is refused leaves every registry as it was. -/
  refused : ∀ call fault, all.register call.registry call.registration = .error fault →
    all.after call = all
  /-- A call leaves every registry but its own as it was. -/
  apart : ∀ call name, name ≠ call.registry → all.after call name = all name

/-- Every run of calls on fresh registries leads to a state in which the laws hold. -/
theorem run_lawful (calls : List (Call ι δ)) : Lawful calls (fresh.run calls) := by
  -- A registry shows the bindings that were made in it, from which the first three laws are read.
  have shown : ∀ name, ((fresh : Registries ι δ).run calls name).Shows
      (madeIn name fresh calls) := by
    intro name
    have unused : ∀ name, ((fresh : Registries ι δ) name).Shows [] := fun _ => Registry.shows_nil
    have reached := shows_run unused calls name
    rwa [List.nil_append] at reached
  generalize (fresh : Registries ι δ).run calls = all at shown
  refine {
    first_wins := fun name => (shown name).find?_eq
    in_order := fun name => (shown name).typeUrls_eq
    once := fun name => (shown name).nodup
    lasting := ?_
    extended := ?_
    free := ?_
    again := ?_
    conflict := ?_
    other_class := fun _ => rfl
    refused := ?_
    apart := ?_ }
  -- Further calls only add bindings behind those that there are.
  · intro later name typeUrl decoder found
    rw [(shows_run shown later name).find?_eq, List.lookup_append, ← (shown name).find?_eq, found,
      Option.some_or]
  · intro later name
    rw [(shows_run shown later name).typeUrls_eq, (shown name).typeUrls_eq, List.map_append,
      List.eraseDups_append]
    exact List.prefix_append _ _
  -- What a call does is told by what its registry has for the URL.
  · intro name registration typeUrl decoder asks free
    have made := register_of_accepted (Registry.register_of_free asks free)
    refine ⟨_, made, ?_⟩
    have absent : (all name).bindings.lookup typeUrl = none := free
    rw [if_pos rfl, Registry.find?, List.lookup_append, absent, Option.none_or,
      List.lookup_cons_self]
  · intro name registration typeUrl decoder asks found
    have same : (fun other => if other = name then all name else all other) = all := by
      funext other
      split
      · next own => rw [own]
      · rfl
    rw [register_of_accepted (Registry.register_of_same asks found), same]
  · intro name registration typeUrl decoder bound asks found other
    exact register_of_refused (Registry.register_of_other asks found other)
  -- A call that fails does nothing, and one that does not touches its own registry only.
  · intro call fault outcome
    rw [after, outcome]
  · intro call name other
    rw [after_apply, if_neg other]

/-- A program's registries start out fresh but for the default one, which knows approval policies.
This is a state to which a run of one call leads, so the laws hold from there on, too. -/
theorem run_withApprovalPolicy (default : ι) (reader : δ) :
    fresh.run [⟨default, .policyClass (Packable.typeUrl Approval.Policy) reader⟩] =
      fun name => if name = default then .withApprovalPolicy reader else ⟨[]⟩ := by
  funext name
  exact after_apply fresh ⟨default, .policyClass _ reader⟩ name

end Registries

end Custody
