import Castserver.Dispatcher
import Castserver.Library.Runs
import Mathlib.Data.List.GetD
import Mathlib.Logic.Function.Basic

/-!
# One server on a network

Every instance sends a probe before it starts its services and gives up when it is
answered. The probe goes to the default group and port, while the socket that answers
is bound to the configured ones; and an instance that has sent its own probe does not
answer until it has bound that socket. A probe that arrives in between is lost.

An instance that has passed the probe never leaves again, so two of them stay two. The
condition below is met by a step exactly when it does not lead to a second one.
-/

namespace Castserver.Mutex

open Dispatcher
open Library.Runs

/-- The macro `MUTEX_TAG`. -/
def mutexTag : List Char :=
  ['c', 'a', 's', 't', 's', 'p', 'e', 'a', 'k', 'e', 'r', ' ', 's', 'e', 'r', 'v', 'e', 'r']

/-- The macro `MUTEX_TAG_SIZE`. -/
def mutexTagSize : Nat := 18

/-- The macro `MUTEX_RSP`. -/
def mutexRsp : List Char :=
  ['h', 'e', 'y', ',', ' ', 'k', 'i', 'l', 'l', ' ', 'y', 'o', 'u', 'r', 's', 'e', 'l', 'f']

/-- The macro `MUTEX_RSP_SIZE`. -/
def mutexRspSize : Nat := 18

/-- A multicast group and a port. -/
structure Address where
  group : UInt32
  port : UInt16
deriving DecidableEq, Repr

/-- The options `-g` and `-p`. -/
structure Options where
  group : Option UInt32
  port : Option UInt16
deriving DecidableEq, Repr

/-- The address of the detect socket. Zero stands for a default here. -/
def listenAddress (standard : Address) (options : Options) : Address where
  group :=
    match options.group with
    | some group => if group ≠ 0 then group else standard.group
    | none => standard.group
  port :=
    match options.port with
    | some port => if port ≠ 0 then port else standard.port
    | none => standard.port

/-- Where an instance stands in `main`: before its probe, in the `recvfrom` behind it,
behind `create_mutex`, behind `create_detect_socket`, in the event loop, or gone. -/
inductive Stage where
  | starting
  | probing
  | passed
  | bound
  | serving
  | exited
deriving DecidableEq, Repr

/-- Where the probe of one instance to the host of another is: on its way there, in the
queue of the socket there, or on its way back as a reply. -/
inductive Mail where
  | absent
  | sent
  | queued
  | replied
deriving DecidableEq, Repr

/-- All instances, and what there is between any two of them. -/
structure Network (count : Nat) where
  stage : Fin count → Stage
  mail : Fin count → Fin count → Mail

/-- A step of one instance, or the arrival of a probe or a reply. -/
inductive Action (count : Nat) where
  | sendto (prober : Fin count)
  | arrive (prober host : Fin count)
  | read (prober host : Fin count)
  | receive (prober host : Fin count)
  | timeout (prober : Fin count)
  | bind (host : Fin count)
  | serve (host : Fin count)
deriving DecidableEq, Repr

/-- The package of a probe. -/
def probe : List UInt8 := (bytesOf mutexTag).take mutexTagSize

/-- What `srv_detect_read` sends back for a package, if the package is a probe. -/
def srvDetectRead (package : List UInt8) : Option (List UInt8) :=
  if package.length = mutexTagSize ∧
      memcmp (fun i => package.getD i 0) (cString mutexTag) mutexTagSize = 0 then
    some ((bytesOf mutexRsp).take mutexRspSize)
  else none

/-- How `create_mutex` ends, given what its `recvfrom` receives before the timeout. -/
def createMutex : Option (List UInt8) → Stage
  | some buf =>
    if 0 < buf.length ∧ strncasecmp (fun i => buf.getD i 0) (cString mutexRsp) mutexRspSize = 0 then
      .exited
    else .passed
  | none => .passed

section Steps

variable {count : Nat}

/-- The network with one instance at another stage. -/
def Network.move (network : Network count) (host : Fin count) (stage : Stage) : Network count :=
  { network with stage := Function.update network.stage host stage }

/-- The network with a probe at another place. -/
def Network.put (network : Network count) (prober host : Fin count) (mail : Mail) :
    Network count :=
  { network with
    mail := fun p h => if p = prober ∧ h = host then mail else network.mail p h }

/-- The probe is sent to all hosts but its own. -/
def Network.multicast (network : Network count) (prober : Fin count) : Network count :=
  { network with
    mail := fun p h => if p = prober ∧ h ≠ prober then .sent else network.mail p h }

/-- An instance is behind `create_mutex`. -/
def Past (network : Network count) (host : Fin count) : Prop :=
  network.stage host = .passed ∨ network.stage host = .bound ∨ network.stage host = .serving

/-- An instance has a socket that a probe is delivered to. -/
def Listens (standard : Address) (options : Options) (network : Network count)
    (host : Fin count) : Prop :=
  (network.stage host = .bound ∨ network.stage host = .serving) ∧
    listenAddress standard options = standard

instance (network : Network count) (host : Fin count) : Decidable (Past network host) :=
  inferInstanceAs (Decidable (_ ∨ _ ∨ _))

instance (standard : Address) (options : Options) (network : Network count) (host : Fin count) :
    Decidable (Listens standard options network host) :=
  inferInstanceAs (Decidable (_ ∧ _))

/-- The effect of an action. -/
def step (standard : Address) (options : Options) (network : Network count) :
    Action count → Network count
  | .sendto prober => (network.multicast prober).move prober .probing
  | .arrive prober host =>
    network.put prober host (if Listens standard options network host then .queued else .absent)
  | .read prober host =>
    network.put prober host (if (srvDetectRead probe).isSome then .replied else .absent)
  | .receive prober host =>
    if network.stage prober = .probing then
      (network.put prober host .absent).move prober (createMutex (srvDetectRead probe))
    else network.put prober host .absent
  | .timeout prober => network.move prober (createMutex none)
  | .bind host => network.move host .bound
  | .serve host => network.move host .serving

/-- What can happen on a network that loses nothing and is faster than the timeout. -/
def enabled (network : Network count) : Action count → Prop
  | .sendto prober => network.stage prober = .starting
  | .arrive prober host => network.mail prober host = .sent
  | .read prober host => network.mail prober host = .queued ∧ network.stage host = .serving
  | .receive prober host => network.mail prober host = .replied
  | .timeout prober =>
    network.stage prober = .probing ∧ ∀ host, network.mail prober host = .absent
  | .bind host => network.stage host = .passed
  | .serve host => network.stage host = .bound

/-- The start of any number of instances with the same options. -/
def machine (standard : Address) (options : Options) (count : Nat) :
    Machine (Network count) (Action count) where
  enabled := enabled
  step := step standard options

/-- No instance has started and nothing is on its way. -/
def quietNetwork (count : Nat) : Network count where
  stage := fun _ => .starting
  mail := fun _ _ => .absent

/-- At most one instance is in its event loop. -/
def Exclusive (network : Network count) : Prop :=
  ∀ first second, network.stage first = .serving → network.stage second = .serving →
    first = second

/-- No instance is in the middle of its start-up. -/
def Settled (network : Network count) : Prop :=
  ∀ host, network.stage host = .starting ∨ network.stage host = .serving ∨
    network.stage host = .exited

/-- A probe that arrives at an instance behind its own probe finds it listening, and an
instance gets behind its own probe while the probes of all others are still on their
way to it. -/
def Answerable (standard : Address) (options : Options) (network : Network count) :
    Action count → Prop
  | .arrive prober host =>
    network.stage prober = .probing → Past network host → Listens standard options network host
  | .timeout prober =>
    ∀ other, other ≠ prober → network.stage other = .probing → network.mail other prober = .sent
  | _ => True

instance (network : Network count) (action : Action count) : Decidable (enabled network action) :=
  match action with
  | .sendto _ | .arrive _ _ | .receive _ _ | .bind _ | .serve _ =>
    inferInstanceAs (Decidable (_ = _))
  | .read _ _ | .timeout _ => inferInstanceAs (Decidable (_ ∧ _))

instance (standard : Address) (options : Options) (network : Network count)
    (action : Action count) : Decidable (Answerable standard options network action) :=
  match action with
  | .arrive _ _ => inferInstanceAs (Decidable (_ → _ → _))
  | .timeout _ => inferInstanceAs (Decidable (∀ _, _))
  | .sendto _ | .read _ _ | .receive _ _ | .bind _ | .serve _ => isTrue trivial

@[simp] theorem move_mail (network : Network count) (host : Fin count) (stage : Stage) :
    (network.move host stage).mail = network.mail := rfl

@[simp] theorem put_stage (network : Network count) (prober host : Fin count) (mail : Mail) :
    (network.put prober host mail).stage = network.stage := rfl

@[simp] theorem multicast_stage (network : Network count) (prober : Fin count) :
    (network.multicast prober).stage = network.stage := rfl

@[simp] theorem move_stage (network : Network count) (host other : Fin count) (stage : Stage) :
    (network.move host stage).stage other =
      if other = host then stage else network.stage other := by
  simp [Network.move, Function.update_apply]

@[simp] theorem put_mail (network : Network count) (prober host p h : Fin count) (mail : Mail) :
    (network.put prober host mail).mail p h =
      if p = prober ∧ h = host then mail else network.mail p h := rfl

@[simp] theorem multicast_mail (network : Network count) (prober p h : Fin count) :
    (network.multicast prober).mail p h =
      if p = prober ∧ h ≠ prober then .sent else network.mail p h := rfl

end Steps

/-- A probe is answered. -/
theorem probe_answered : srvDetectRead probe = some ((bytesOf mutexRsp).take mutexRspSize) := by
  decide

/-- A package is answered exactly if it is a probe. -/
theorem srv_detect_read_probe (package : List UInt8) :
    srvDetectRead package =
      if package = probe then some ((bytesOf mutexRsp).take mutexRspSize) else none := by
  have same : (package.length = mutexTagSize ∧
      memcmp (fun i => package.getD i 0) (cString mutexTag) mutexTagSize = 0) ↔
      package = probe := by
    rw [memcmp_zero]
    constructor
    · rintro ⟨size, equal⟩
      apply List.ext_getElem size
      intro i inside fits
      have listed : i < (bytesOf mutexTag).length := fits
      have byte := equal i (size ▸ inside)
      rw [List.getD_eq_getElem _ _ inside] at byte
      rw [byte, cString, List.getD_eq_getElem _ _ listed]
      exact List.getElem_take.symm
    · rintro rfl
      decide
  simp only [srvDetectRead, same]

/-- The answer to a probe ends the instance that sent it. -/
theorem answer_refuses : createMutex (srvDetectRead probe) = .exited := by
  decide

/-- A probe is past its way only where an instance is behind its own probe. -/
def Delivered {count : Nat} (network : Network count) : Prop :=
  ∀ prober host, network.mail prober host ≠ .absent → network.mail prober host ≠ .sent →
    Past network host

/-- At most one instance is behind its own probe, and every probe that others still wait
for an answer to is on its way to it, in its queue, or answered. -/
structure Sole {count : Nat} (network : Network count) : Prop where
  single : ∀ first second, Past network first → Past network second → first = second
  asked : ∀ prober host, network.stage prober = .probing → Past network host →
    network.mail prober host ≠ .absent

section Stages

variable {count : Nat} (standard : Address) (options : Options) (network : Network count)

/-- Only a timeout brings another instance behind its probe, and none comes back. -/
theorem past_step (action : Action count) (possible : enabled network action) (host : Fin count) :
    Past (step standard options network action) host ↔
      Past network host ∨ action = .timeout host := by
  cases action with
  | sendto prober =>
    have starting : network.stage prober = .starting := possible
    by_cases own : host = prober
    · subst own
      simp [Past, step, starting]
    · simp [Past, step, own]
  | arrive prober other => simp [Past, step]
  | read prober other => simp [Past, step]
  | receive prober other =>
    rw [step, answer_refuses]
    by_cases probing : network.stage prober = .probing
    · by_cases own : host = prober
      · subst own
        simp [Past, probing]
      · simp [Past, probing, own]
    · simp [Past, probing]
  | timeout prober =>
    by_cases own : host = prober
    · subst own
      simp [Past, step, createMutex]
    · have apart : ¬ prober = host := fun same => own same.symm
      simp [Past, step, own, apart]
  | bind other =>
    have passed : network.stage other = .passed := possible
    by_cases own : host = other
    · subst own
      simp [Past, step, passed]
    · simp [Past, step, own]
  | serve other =>
    have bound : network.stage other = .bound := possible
    by_cases own : host = other
    · subst own
      simp [Past, step, bound]
    · simp [Past, step, own]

/-- An instance waits for an answer from its own probe on. -/
theorem probing_origin (action : Action count) (prober : Fin count)
    (probing : (step standard options network action).stage prober = .probing) :
    action = .sendto prober ∨ network.stage prober = .probing := by
  cases action with
  | sendto other =>
    by_cases own : prober = other
    · exact Or.inl (by rw [own])
    · simpa [step, own] using Or.inr probing
  | arrive other host => exact Or.inr probing
  | read other host => exact Or.inr probing
  | receive other host =>
    rw [step, answer_refuses] at probing
    split at probing
    · by_cases own : prober = other <;> simp_all
    · exact Or.inr probing
  | timeout other => by_cases own : prober = other <;> simp_all [step, createMutex]
  | bind other => by_cases own : prober = other <;> simp_all [step]
  | serve other => by_cases own : prober = other <;> simp_all [step]

/-- An instance that waits for an answer is not behind its probe. -/
theorem probing_not_past (host : Fin count) (probing : network.stage host = .probing) :
    ¬ Past network host := by
  simp [Past, probing]

/-- Every step keeps probes from being past their way elsewhere. -/
theorem delivered_step (action : Action count) (possible : enabled network action)
    (delivered : Delivered network) : Delivered (step standard options network action) := by
  intro p h present arrived
  refine (past_step standard options network action possible h).mpr (Or.inl ?_)
  cases action with
  | sendto prober =>
    by_cases own : p = prober ∧ h ≠ prober
    · exact absurd (by simp [step, own]) arrived
    · simp only [step, move_mail, multicast_mail, if_neg own] at present arrived
      exact delivered p h present arrived
  | arrive prober host =>
    by_cases own : p = prober ∧ h = host
    · obtain ⟨rfl, rfl⟩ := own
      by_cases listens : Listens standard options network h
      · exact Or.inr listens.1
      · exact absurd (by simp [step, listens]) present
    · simp only [step, put_mail, if_neg own] at present arrived
      exact delivered p h present arrived
  | read prober host =>
    by_cases own : p = prober ∧ h = host
    · obtain ⟨rfl, rfl⟩ := own
      exact Or.inr (Or.inr possible.2)
    · simp only [step, put_mail, if_neg own] at present arrived
      exact delivered p h present arrived
  | receive prober host =>
    have mail : (step standard options network (.receive prober host)).mail p h =
        if p = prober ∧ h = host then .absent else network.mail p h := by
      rw [step]
      split <;> rfl
    rw [mail] at present arrived
    split at present
    · exact absurd rfl present
    · rename_i other
      rw [if_neg other] at arrived
      exact delivered p h present arrived
  | timeout prober => exact delivered p h present arrived
  | bind host => exact delivered p h present arrived
  | serve host => exact delivered p h present arrived

/-- A step other than a timeout keeps at most one instance behind its probe, if the probes
that are waited for after it still reach the instances that were behind theirs. -/
theorem sole_kept (action : Action count) (possible : enabled network action)
    (waits : ∀ host, action ≠ .timeout host) (sole : Sole network)
    (asked : ∀ p h, (step standard options network action).stage p = .probing →
      Past network h → (step standard options network action).mail p h ≠ .absent) :
    Sole (step standard options network action) := by
  have before (host : Fin count) (past : Past (step standard options network action) host) :
      Past network host :=
    ((past_step standard options network action possible host).mp past).resolve_right (waits host)
  constructor
  · intro first second firstPast secondPast
    exact sole.single first second (before first firstPast) (before second secondPast)
  · intro p h probing past
    exact asked p h probing (before h past)

/-- An instance that times out finds no other behind its probe. -/
theorem timeout_alone (prober : Fin count) (possible : enabled network (.timeout prober))
    (sole : Sole network) (host : Fin count) : ¬ Past network host := by
  intro past
  exact sole.asked prober host possible.1 past (possible.2 host)

/-- A probe that arrives keeps the others answered exactly when it is heard where it has to
be. -/
theorem arrive_decides (prober host : Fin count) (sole : Sole network)
    (possible : enabled network (.arrive prober host)) :
    Sole (step standard options network (.arrive prober host)) ↔
      Answerable standard options network (.arrive prober host) := by
  constructor
  · intro later probing past
    by_contra unheard
    refine later.asked prober host probing
      ((past_step standard options network _ possible host).mpr (Or.inl past)) ?_
    simp [step, unheard]
  · intro met
    apply sole_kept standard options network _ possible (by simp) sole
    intro p h probing past
    by_cases own : p = prober ∧ h = host
    · obtain ⟨rfl, rfl⟩ := own
      simp [step, met probing past]
    · simpa [step, own] using sole.asked p h probing past

/-- An instance that times out is the one behind its probe, and the others still get its
answer exactly when their probes are on their way to it. -/
theorem timeout_decides (prober : Fin count) (delivered : Delivered network)
    (sole : Sole network) (possible : enabled network (.timeout prober)) :
    Sole (step standard options network (.timeout prober)) ↔
      Answerable standard options network (.timeout prober) := by
  have alone := timeout_alone network prober possible sole
  have only (host : Fin count)
      (past : Past (step standard options network (.timeout prober)) host) : host = prober := by
    have before := (past_step standard options network _ possible host).mp past
    exact (Action.timeout.inj (before.resolve_left (alone host))).symm
  constructor
  · intro later other apart probing
    have unaffected :
        (step standard options network (.timeout prober)).stage other = .probing := by
      simpa [step, apart] using probing
    have past : Past (step standard options network (.timeout prober)) prober :=
      (past_step standard options network _ possible prober).mpr (Or.inr rfl)
    have present : network.mail other prober ≠ .absent :=
      later.asked other prober unaffected past
    by_contra arrived
    exact alone prober (delivered other prober present arrived)
  · intro met
    constructor
    · intro first second firstPast secondPast
      exact (only first firstPast).trans (only second secondPast).symm
    · intro p h probing past
      have waiting : network.stage p = .probing :=
        (probing_origin standard options network _ p probing).resolve_left (by simp)
      have apart : p ≠ prober := by
        rintro rfl
        simp [step, createMutex] at probing
      rw [only h past]
      have sent : network.mail p prober = .sent := met p apart waiting
      simp [step, sent]

/-- The step keeps at most one instance behind its probe, with all others still to be
answered by it, exactly when it meets the condition. -/
theorem step_decides (action : Action count) (delivered : Delivered network)
    (sole : Sole network) (possible : enabled network action) :
    Sole (step standard options network action) ↔
      Answerable standard options network action := by
  have kept := sole_kept standard options network action possible
  cases action with
  | sendto prober =>
    have starting : network.stage prober = .starting := possible
    refine iff_of_true (kept (by simp) sole ?_) trivial
    intro p h probing past
    have apart : h ≠ prober := by
      rintro rfl
      simp [Past, starting] at past
    by_cases own : p = prober
    · simp [step, own, apart]
    · have asked := sole.asked p h (by simpa [step, own] using probing) past
      simpa [step, own] using asked
  | arrive prober host => exact arrive_decides standard options network prober host sole possible
  | read prober host =>
    refine iff_of_true (kept (by simp) sole ?_) trivial
    intro p h probing past
    by_cases own : p = prober ∧ h = host
    · simp [step, own, probe_answered]
    · simpa [step, own] using sole.asked p h probing past
  | receive prober host =>
    refine iff_of_true (kept (by simp) sole ?_) trivial
    intro p h probing past
    have waiting : network.stage p = .probing :=
      (probing_origin standard options network _ p probing).resolve_left (by simp)
    -- an instance whose reply arrives does not wait any longer
    have apart : p ≠ prober := by
      rintro rfl
      simp [step, waiting, answer_refuses] at probing
    have same : (step standard options network (.receive prober host)).mail p h =
        network.mail p h := by
      rw [step]
      split <;> simp [apart]
    rw [same]
    exact sole.asked p h waiting past
  | timeout prober =>
    exact timeout_decides standard options network prober delivered sole possible
  | bind host =>
    refine iff_of_true (kept (by simp) sole ?_) trivial
    intro p h probing past
    exact sole.asked p h ((probing_origin standard options network _ p probing).resolve_left
      (by simp)) past
  | serve host =>
    refine iff_of_true (kept (by simp) sole ?_) trivial
    intro p h probing past
    exact sole.asked p h ((probing_origin standard options network _ p probing).resolve_left
      (by simp)) past

/-- Two instances behind their probes are not at most one. -/
theorem twice_not_sole (first second : Fin count) (apart : first ≠ second)
    (firstPast : Past network first) (secondPast : Past network second) : ¬ Sole network :=
  fun sole => apart (sole.single first second firstPast secondPast)

/-- A probe without an answer that has missed an instance behind its own probe keeps
missing it, or its sender gets behind it too, or is ended by a third. -/
theorem missed_step (action : Action count) (possible : enabled network action)
    (delivered : Delivered network) (prober host : Fin count)
    (probing : network.stage prober = .probing) (past : Past network host)
    (missed : network.mail prober host = .absent) :
    ¬ Sole (step standard options network action) := by
  have stays (other : Fin count) (earlier : Past network other) :
      Past (step standard options network action) other :=
    (past_step standard options network action possible other).mpr (Or.inl earlier)
  have apart : prober ≠ host := by
    rintro rfl
    exact probing_not_past network prober probing past
  have still (waits : (step standard options network action).stage prober = .probing)
      (unchanged : (step standard options network action).mail prober host = .absent) :
      ¬ Sole (step standard options network action) :=
    fun sole => sole.asked prober host waits (stays host past) unchanged
  cases action with
  | sendto other =>
    have starting : network.stage other = .starting := possible
    have different : prober ≠ other := by
      rintro rfl
      simp [probing] at starting
    exact still (by simp [step, different, probing]) (by simp [step, different, missed])
  | arrive p h =>
    have sent : network.mail p h = .sent := possible
    have elsewhere : ¬ (prober = p ∧ host = h) := by
      rintro ⟨rfl, rfl⟩
      simp [missed] at sent
    exact still probing (by simp [step, elsewhere, missed])
  | read p h =>
    have queued : network.mail p h = .queued := possible.1
    have elsewhere : ¬ (prober = p ∧ host = h) := by
      rintro ⟨rfl, rfl⟩
      simp [missed] at queued
    exact still probing (by simp [step, elsewhere, missed])
  | receive p h =>
    have replied : network.mail p h = .replied := possible
    by_cases own : prober = p
    · subst own
      have third : Past network h := delivered prober h (by simp [replied]) (by simp [replied])
      have different : h ≠ host := by
        rintro rfl
        simp [missed] at replied
      exact twice_not_sole _ h host different (stays h third) (stays host past)
    · refine still ?_ ?_
      · rw [step]
        split <;> simp [own, probing]
      · rw [step]
        split <;> simp [own, missed]
  | timeout other =>
    by_cases own : prober = other
    · subst own
      have passed : Past (step standard options network (.timeout prober)) prober :=
        (past_step standard options network _ possible prober).mpr (Or.inr rfl)
      exact twice_not_sole _ prober host apart passed (stays host past)
    · exact still (by simp [step, own, probing]) (by simp [step, missed])
  | bind other =>
    have different : prober ≠ other := by
      rintro rfl
      have passed : network.stage prober = .passed := possible
      simp [probing] at passed
    exact still (by simp [step, different, probing]) (by simp [step, missed])
  | serve other =>
    have different : prober ≠ other := by
      rintro rfl
      have bound : network.stage prober = .bound := possible
      simp [probing] at bound
    exact still (by simp [step, different, probing]) (by simp [step, missed])

/-- Once there is more than one instance behind its probe, or one that will be, it stays so. -/
theorem lost_step (action : Action count) (possible : enabled network action)
    (delivered : Delivered network) (lost : ¬ Sole network) :
    ¬ Sole (step standard options network action) := by
  by_cases single : ∀ first second, Past network first → Past network second → first = second
  · have missing : ¬ ∀ prober host, network.stage prober = .probing → Past network host →
        network.mail prober host ≠ .absent := fun asked => lost ⟨single, asked⟩
    push Not at missing
    obtain ⟨prober, host, probing, past, missed⟩ := missing
    exact missed_step standard options network action possible delivered prober host probing past
      missed
  · push Not at single
    obtain ⟨first, second, firstPast, secondPast, apart⟩ := single
    exact twice_not_sole _ first second apart
      ((past_step standard options network action possible first).mpr (Or.inl firstPast))
      ((past_step standard options network action possible second).mpr (Or.inl secondPast))

/-- At most one instance behind its probe is at most one in its event loop. -/
theorem sole_exclusive (sole : Sole network) : Exclusive network := by
  intro first second firstServes secondServes
  exact sole.single first second (Or.inr (Or.inr firstServes)) (Or.inr (Or.inr secondServes))

/-- With no instance in the middle of its start-up, those behind their probes are in
their event loops. -/
theorem settled_sole (settled : Settled network) (exclusive : Exclusive network) :
    Sole network := by
  have serves (host : Fin count) (past : Past network host) : network.stage host = .serving := by
    rcases settled host with starting | serving | exited
    · simp [Past, starting] at past
    · exact serving
    · simp [Past, exited] at past
  constructor
  · intro first second firstPast secondPast
    exact exclusive first second (serves first firstPast) (serves second secondPast)
  · intro prober host probing _
    rcases settled prober with starting | serving | exited <;> simp_all

end Stages

/-- In every run whose steps all meet the condition, at most one server is in its event
loop in every state; and if a run leaves no instance in the middle of its start-up, this
holds of no other run. -/
theorem one_server_runs (standard : Address) (options : Options) (count : Nat)
    (actions : List (Action count))
    (admissible : (machine standard options count).Admissible (quietNetwork count) actions) :
    ((machine standard options count).Along (Answerable standard options) (quietNetwork count)
        actions →
      (machine standard options count).Throughout Exclusive (quietNetwork count) actions) ∧
    (Settled ((machine standard options count).after (quietNetwork count) actions) →
      ((machine standard options count).Throughout Exclusive (quietNetwork count) actions ↔
        (machine standard options count).Along (Answerable standard options) (quietNetwork count)
          actions)) := by
  have delivered : Delivered (quietNetwork count) := fun _ _ present _ => absurd rfl present
  have sole : Sole (quietNetwork count) :=
    ⟨fun first _ past _ => by simp [Past, quietNetwork] at past,
      fun prober _ probing _ => by simp [quietNetwork] at probing⟩
  have exact := (machine standard options count).throughout_iff_along Sole Delivered
    (Answerable standard options)
    (fun network action kept alone possible =>
      step_decides standard options network action kept alone possible)
    (fun network action kept _ possible _ =>
      delivered_step standard options network action possible kept)
    (quietNetwork count) actions delivered sole admissible
  have safe (met : (machine standard options count).Along (Answerable standard options)
      (quietNetwork count) actions) :
      (machine standard options count).Throughout Exclusive (quietNetwork count) actions :=
    (machine standard options count).throughout_weaken Sole Exclusive sole_exclusive _ _
      (exact.mpr met)
  refine ⟨safe, fun settled => ⟨?_, safe⟩⟩
  intro exclusive
  have last : Exclusive ((machine standard options count).after (quietNetwork count) actions) :=
    (machine standard options count).throughout_end Exclusive _ _ exclusive
  refine exact.mp ((machine standard options count).throughout_of_end Sole Delivered
    ?_ ?_ (quietNetwork count) actions delivered admissible
    (settled_sole _ settled last))
  · intro network action kept possible
    exact delivered_step standard options network action possible kept
  · intro network action kept possible lost
    exact lost_step standard options network action possible kept lost

/-- The default group 239.255.77.77 and port 4010. -/
def referenceStandard : Address where
  group := 0xEFFF4D4D
  port := 4010

/-- A second server that starts before the first one serves is still ended by it. -/
theorem second_server_ends :
    (machine referenceStandard ⟨none, none⟩ 2).Throughout Exclusive (quietNetwork 2)
      [.sendto 0, .arrive 0 1, .timeout 0, .sendto 1, .bind 0, .arrive 1 0, .serve 0, .read 1 0,
        .receive 1 0] := by
  have admissible : (machine referenceStandard ⟨none, none⟩ 2).Along enabled (quietNetwork 2)
      [.sendto 0, .arrive 0 1, .timeout 0, .sendto 1, .bind 0, .arrive 1 0, .serve 0, .read 1 0,
        .receive 1 0] := by
    decide
  apply (one_server_runs referenceStandard ⟨none, none⟩ 2 _ admissible).1
  decide

/-- With another port, two servers run that were started one after the other; and with
the defaults, two servers run whose probes cross. -/
theorem two_servers_run :
    ((machine referenceStandard ⟨none, some 5000⟩ 2).Admissible (quietNetwork 2)
        [.sendto 0, .arrive 0 1, .timeout 0, .bind 0, .serve 0, .sendto 1, .arrive 1 0, .timeout 1,
          .bind 1, .serve 1] ∧
      ¬ Exclusive ((machine referenceStandard ⟨none, some 5000⟩ 2).after (quietNetwork 2)
        [.sendto 0, .arrive 0 1, .timeout 0, .bind 0, .serve 0, .sendto 1, .arrive 1 0, .timeout 1,
          .bind 1, .serve 1])) ∧
    ((machine referenceStandard ⟨none, none⟩ 2).Admissible (quietNetwork 2)
        [.sendto 0, .sendto 1, .arrive 0 1, .arrive 1 0, .timeout 0, .timeout 1, .bind 0, .bind 1,
          .serve 0, .serve 1] ∧
      ¬ Exclusive ((machine referenceStandard ⟨none, none⟩ 2).after (quietNetwork 2)
        [.sendto 0, .sendto 1, .arrive 0 1, .arrive 1 0, .timeout 0, .timeout 1, .bind 0, .bind 1,
          .serve 0, .serve 1])) := by
  have twice (network : Network 2) (first : network.stage 0 = .serving)
      (second : network.stage 1 = .serving) : ¬ Exclusive network := by
    intro exclusive
    exact absurd (exclusive 0 1 first second) (by decide)
  refine ⟨⟨?_, twice _ (by decide) (by decide)⟩, ⟨?_, twice _ (by decide) (by decide)⟩⟩
  · change (machine referenceStandard ⟨none, some 5000⟩ 2).Along enabled (quietNetwork 2) _
    decide
  · change (machine referenceStandard ⟨none, none⟩ 2).Along enabled (quietNetwork 2) _
    decide

end Castserver.Mutex
