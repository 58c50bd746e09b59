import ProbeNet.Session.Calls

/-!
# What operations keep to

An operation does two things that others notice: it hands packets to the
transport, and it may change how long the session takes packets to be.  `Terms`
say which packets and which changes are allowed, and `Operation.Keeps` that an
operation keeps to them whatever it is told while it runs.  What it ends with is
described by a condition on its result and on the limit at the end.

`keeps_bind` takes a program apart.  An operation is `Quiet` when it hands over
nothing and leaves the limit as it is; most calls are, since what a register
channel sends for them is not handed over by the call itself.
-/

namespace ProbeNet

/-- What operations may do under a limit on the length of packets. -/
structure Terms where
  /-- The packets that may be handed to the transport. -/
  sends : Nat → Packet → Prop
  /-- How the limit may change. -/
  changes : Nat → Nat → Prop

/-- Nothing is handed over, and the limit stays. -/
def Terms.quiet : Terms := { sends := fun _ _ => False, changes := Eq }

namespace Operation

variable {α β : Type} {terms : Terms}

/-- Started under a limit, the operation keeps to the terms, and the condition
holds of its result and the limit then, if it ends.  As long as it runs, nobody
else changes the limit. -/
def Keeps (terms : Terms) (post : α → Nat → Prop) : Operation α → Nat → Prop
  | done a, limit => post a limit
  | look next, limit => ∀ s : Session, s.maxPacketLen = limit → (next s).Keeps terms post limit
  | change f next, limit => ∀ s : Session, s.maxPacketLen = limit →
      terms.changes limit (f s).maxPacketLen ∧ next.Keeps terms post (f s).maxPacketLen
  | step next, limit => next.Keeps terms post limit
  | hangUp next, limit => next.Keeps terms post limit
  | access _ _ next, limit => ∀ r, (next r).Keeps terms post limit
  | send e p next, limit =>
      (e = .first → terms.sends limit p) ∧ ∀ r, (next r).Keeps terms post limit
  | receive _ next, limit => ∀ r, (next r).Keeps terms post limit
  | ask _ next, limit => ∀ t, (next t).Keeps terms post limit
  | pause _ next, limit => next.Keeps terms post limit
  | print _ next, limit => next.Keeps terms post limit

/-- What follows a program is under the limit that the program has left. -/
theorem keeps_bind {f : α → Operation β} {post : β → Nat → Prop} {o : Operation α} {limit : Nat}
    (h : o.Keeps terms (fun a limit => (f a).Keeps terms post limit) limit) :
    (o.bind f).Keeps terms post limit := by
  induction o generalizing limit with
  | done a => exact h
  | look next ih => exact fun s hs => ih s (h s hs)
  | change g next ih => exact fun s hs => ⟨(h s hs).1, ih (h s hs).2⟩
  | step next ih => exact ih h
  | hangUp next ih => exact ih h
  | access m t next ih => exact fun r => ih r (h r)
  | send e p next ih => exact ⟨h.1, fun r => ih r (h.2 r)⟩
  | receive wait next ih => exact fun r => ih r (h r)
  | ask g next ih => exact fun t => ih t (h t)
  | pause ms next ih => exact ih h
  | print text next ih => exact ih h

/-- Whoever keeps to strict terms keeps to lenient ones. -/
theorem Keeps.mono {terms' : Terms} {post post' : α → Nat → Prop} {o : Operation α} {limit : Nat}
    (h : o.Keeps terms post limit) (hsends : ∀ l p, terms.sends l p → terms'.sends l p)
    (hchanges : ∀ l l', terms.changes l l' → terms'.changes l l')
    (hpost : ∀ a l, post a l → post' a l) : o.Keeps terms' post' limit := by
  induction o generalizing limit with
  | done a => exact hpost a limit h
  | look next ih => exact fun s hs => ih s (h s hs)
  | change g next ih => exact fun s hs => ⟨hchanges _ _ (h s hs).1, ih (h s hs).2⟩
  | step next ih => exact ih h
  | hangUp next ih => exact ih h
  | access m t next ih => exact fun r => ih r (h r)
  | send e p next ih => exact ⟨fun he => hsends _ _ (h.1 he), fun r => ih r (h.2 r)⟩
  | receive wait next ih => exact fun r => ih r (h r)
  | ask g next ih => exact fun t => ih t (h t)
  | pause ms next ih => exact ih h
  | print text next ih => exact ih h

end Operation

namespace SessionM

variable {α β : Type} {terms : Terms}

/-- The call hands nothing over and leaves the limit as it is. -/
def Quiet (x : SessionM α) : Prop :=
  ∀ limit, x.run.Keeps .quiet (fun _ limit' => limit' = limit) limit

/-- What follows a call is done only if the call succeeds. -/
theorem keeps_bind {x : SessionM β} {f : β → SessionM α} {post : Except SessionError α → Nat → Prop}
    {limit : Nat}
    (h : x.run.Keeps terms (fun r limit => match r with
      | .ok b => (f b).run.Keeps terms post limit
      | .error e => post (.error e) limit) limit) :
    (x >>= f).run.Keeps terms post limit := by
  refine Operation.keeps_bind (h.mono (fun _ _ => id) (fun _ _ => id) fun r l hr => ?_)
  cases r with
  | ok b => exact hr
  | error e => exact hr

/-- A quiet call changes nothing for what follows it. -/
theorem Quiet.keeps_bind {x : SessionM β} {f : β → SessionM α}
    {post : Except SessionError α → Nat → Prop} {limit : Nat} (hx : x.Quiet)
    (hchanges : ∀ l, terms.changes l l) (hok : ∀ b, (f b).run.Keeps terms post limit)
    (herror : ∀ e, post (.error e) limit) : (x >>= f).run.Keeps terms post limit := by
  refine SessionM.keeps_bind ((hx limit).mono (fun _ _ => False.elim) ?_ ?_)
  · rintro l _ rfl
    exact hchanges l
  · rintro r _ rfl
    cases r with
    | ok b => exact hok b
    | error e => exact herror e

/-- What follows a look at the state knows the limit. -/
theorem keeps_state_bind {f : Session → SessionM α} {post : Except SessionError α → Nat → Prop}
    {limit : Nat} (h : ∀ s : Session, s.maxPacketLen = limit → (f s).run.Keeps terms post limit) :
    (SessionM.state >>= f).run.Keeps terms post limit := h

theorem keeps_send {p : Packet} {post : Except SessionError Unit → Nat → Prop} {limit : Nat}
    (hp : terms.sends limit p) (hpost : ∀ r, post r limit) :
    (SessionM.send p).run.Keeps terms post limit := by
  refine ⟨fun _ => hp, fun r => ?_⟩
  cases r with
  | ok _ => exact hpost _
  | error _ => exact hpost _

/-- A call that fails does nothing of what would follow. -/
theorem keeps_throw_bind {e : SessionError} {f : β → SessionM α}
    {post : Except SessionError α → Nat → Prop} {limit : Nat} (h : post (.error e) limit) :
    (throw e >>= f).run.Keeps terms post limit := h

theorem quiet_bind {x : SessionM β} {f : β → SessionM α} (hx : x.Quiet) (hf : ∀ b, (f b).Quiet) :
    (x >>= f).Quiet := fun limit =>
  hx.keeps_bind (fun _ => rfl) (fun b => hf b limit) fun _ => rfl

theorem quiet_pure (a : α) : (pure a : SessionM α).Quiet := fun _ => rfl

theorem quiet_throw (e : SessionError) : (throw e : SessionM α).Quiet := fun _ => rfl

theorem quiet_throw_bind (e : SessionError) (f : β → SessionM α) : (throw e >>= f).Quiet :=
  fun _ => rfl

theorem quiet_state : SessionM.state.Quiet := fun _ _ _ => rfl

theorem quiet_takeStep : SessionM.takeStep.Quiet := fun _ => rfl

theorem quiet_access (m : Address) (t : Register.Transaction) : (SessionM.access m t).Quiet :=
  fun _ _ => rfl

theorem quiet_modify {f : Session → Session} (hf : ∀ s, (f s).maxPacketLen = s.maxPacketLen) :
    (SessionM.modify f).Quiet := fun limit s hs =>
  have hlimit : (f s).maxPacketLen = limit := (hf s).trans hs
  ⟨hlimit.symm, hlimit⟩

theorem quiet_attempt {x : SessionM α} (hx : x.Quiet) : x.attempt.Quiet := fun limit =>
  Operation.keeps_bind (hx limit)

end SessionM

end ProbeNet
