import RtcBase.Library.Interleaving
import RtcBase.UdpSocket.PhysicalSocket

/-! The descriptors that `PhysicalSocket` objects open and close, in a process whose other code opens
and closes descriptors too, so that the system hands out the same numbers again.
-/

namespace RtcBase.UdpSocket

open Library

variable {θ : Type}

/-- Who opened a descriptor: one of the socket objects, or other code. -/
inductive Opener (θ : Type) where
  | socket (object : θ)
  | other
  deriving DecidableEq

/-- The system calls that a socket makes on its descriptor. -/
inductive SystemCall where
  | getsockname
  | bind
  | sendto
  | recvfrom
  | ioctl
  | getsockopt
  | setsockopt
  | fcntl
  | close
  deriving DecidableEq, Repr

/-- `Socket::Option`. -/
inductive SocketOption where
  | dontfragment
  | rcvbuf
  | sndbuf
  | nodelay
  | ipv6V6only
  | dscp
  | rtpSendtimeExtnId
  deriving DecidableEq, Repr

/-- `PhysicalSocket::translate_option`: the level and the name of an option, if it has them. -/
def translateOption : SocketOption → Option (Int × Int)
  | .dontfragment => some (0, 10)
  | .rcvbuf => some (1, 8)
  | .sndbuf => some (1, 7)
  | .nodelay => some (6, 1)
  | .ipv6V6only => none
  | .dscp => none
  | .rtpSendtimeExtnId => none

/-- The methods that use the descriptor and leave it as it is. -/
inductive Method where
  | getLocalAddress
  | bind
  | sendTo
  | recvFrom (timestamp : Bool)
  | getOption (opt : SocketOption)
  | setOption (opt : SocketOption)
  deriving DecidableEq, Repr

/-- The system calls of a method, in order. -/
def Method.calls : Method → List SystemCall
  | .getLocalAddress => [.getsockname]
  | .bind => [.bind]
  | .sendTo => [.sendto]
  | .recvFrom timestamp => .recvfrom :: if timestamp then [.ioctl] else []
  | .getOption opt => if translateOption opt = none then [] else [.getsockopt]
  | .setOption opt => if translateOption opt = none then [] else [.setsockopt]

/-- No method but `close` closes the descriptor. -/
theorem Method.close_notMem_calls (method : Method) : .close ∉ method.calls := by
  cases method with
  | getLocalAddress => decide
  | bind => decide
  | sendTo => decide
  | recvFrom timestamp => cases timestamp <;> decide
  | getOption opt => cases opt <;> decide
  | setOption opt => cases opt <;> decide

/-- Whether a method ends with `update_last_error`. -/
def Method.updates : Method → Bool
  | .bind | .sendTo | .recvFrom _ => true
  | _ => false

/-- What is seen of a socket: a descriptor that the system opened for it, or a call on a descriptor,
with the one who had opened it.
-/
inductive Trace (θ : Type) where
  | opened (object : θ) (fd : Nat)
  | called (object : θ) (call : SystemCall) (s : Int) (found : Option (Opener θ))

/-- The socket objects that exist and the open descriptors. -/
structure Process (θ : Type) where
  sockets : θ → Option PhysicalSocket
  descriptors : Nat → Option (Opener θ)

/-- What can happen: the constructors and the destructor of a socket, its methods, the two methods of
the server that create one, and what other code does with descriptors of its own.
-/
inductive Event (θ : Type) where
  | construct (object : θ) (memory : Bool)
  | adopt (object : θ) (fd : Nat) (dgram : Bool)
  | create (object : θ) (nonblocking dgram : Bool) (closed : SystemResult) (opened : Option Nat)
      (errno : Int)
  | createSocket (object : θ) (nonblocking dgram : Bool) (opened : Option Nat) (errno : Int)
  | call (object : θ) (method : Method) (errno : Int)
  | close (object : θ) (closed : SystemResult)
  | destroy (object : θ) (closed : SystemResult)
  | otherOpens (fd : Nat)
  | otherCloses (fd : Nat)

namespace Process

/-- A process without sockets, with some descriptors of other code. -/
def start (others : Nat → Bool) : Process θ where
  sockets _ := none
  descriptors fd := if others fd then some .other else none

/-- Who opened the descriptor that a call is made on. -/
def found (process : Process θ) (s : Int) : Option (Opener θ) :=
  if 0 ≤ s then process.descriptors s.toNat else none

/-- The traces of some calls on one descriptor. -/
def trace (process : Process θ) (object : θ) (s : Int) (calls : List SystemCall) : List (Trace θ) :=
  calls.map fun call => .called object call s (process.found s)

variable [DecidableEq θ]

def put (process : Process θ) (object : θ) (socket : Option PhysicalSocket) : Process θ :=
  { process with sockets := Function.update process.sockets object socket }

def setDescriptor (process : Process θ) (fd : Nat) (opener : Option (Opener θ)) : Process θ :=
  { process with descriptors := Function.update process.descriptors fd opener }

/-- `PhysicalSocket::close`: the system closes the descriptor, whoever opened it. -/
def close (process : Process θ) (object : θ) (socket : PhysicalSocket) (closed : SystemResult)
    : Process θ × PhysicalSocket × List (Trace θ) :=
  if socket.s = invalidSocket then (process, socket, [])
  else
    let after := { socket.updateLastError closed.errno with s := invalidSocket }
    ((process.setDescriptor socket.s.toNat none).put object (some after), after,
      process.trace object socket.s [.close])

/-- `PhysicalSocket::create`, and `create_async` if it is to be non-blocking. The system opens a
descriptor that is not open, or none.
-/
def create (process : Process θ) (object : θ) (socket : PhysicalSocket) (nonblocking dgram : Bool)
    (closed : SystemResult) (opened : Option Nat) (errno : Int)
    : Option (Process θ × Bool × List (Trace θ)) :=
  let closing := process.close object socket closed
  match opened with
  | none =>
      some (closing.1.put object (some ⟨invalidSocket, dgram, errno⟩), false, closing.2.2)
  | some fd =>
      if closing.1.descriptors fd = none then
        let created :=
          (closing.1.setDescriptor fd (some (.socket object))).put object (some ⟨fd, dgram, errno⟩)
        let calls := if nonblocking then [.fcntl, .fcntl] else []
        some (created, true, closing.2.2 ++ .opened object fd :: created.trace object fd calls)
      else none

/-- What happens, with what is seen of it. -/
def step (process : Process θ) : Event θ → Option (Process θ × List (Trace θ))
  | .construct object memory =>
      match process.sockets object with
      | none => some (process.put object (some ⟨invalidSocket, memory, 0⟩), [])
      | some _ => none
  | .adopt object fd dgram =>
      match process.sockets object with
      | none =>
          if process.descriptors fd = some .other then
            let adopted :=
              (process.setDescriptor fd (some (.socket object))).put object (some ⟨fd, dgram, 0⟩)
            some (adopted, .opened object fd :: adopted.trace object fd [.getsockopt])
          else none
      | some _ => none
  | .create object nonblocking dgram closed opened errno => do
      let socket ← process.sockets object
      let created ← process.create object socket nonblocking dgram closed opened errno
      return (created.1, created.2.2)
  | .createSocket object nonblocking dgram opened errno =>
      match process.sockets object with
      | none => do
          let socket : PhysicalSocket := ⟨invalidSocket, false, 0⟩
          let created ← (process.put object (some socket)).create object socket nonblocking dgram
            ⟨0, 0⟩ opened errno
          -- on failure the server deletes the object, which has nothing to close
          return (if created.2.1 then created.1 else created.1.put object none, created.2.2)
      | some _ => none
  | .call object method errno => do
      let socket ← process.sockets object
      let after := if method.updates then socket.updateLastError errno else socket
      return (process.put object (some after), process.trace object socket.s method.calls)
  | .close object closed => do
      let socket ← process.sockets object
      let closing := process.close object socket closed
      return (closing.1, closing.2.2)
  | .destroy object closed => do
      let socket ← process.sockets object
      let closing := process.close object socket closed
      return (closing.1.put object none, closing.2.2)
  | .otherOpens fd =>
      if process.descriptors fd = none then some (process.setDescriptor fd (some .other), [])
      else none
  | .otherCloses fd =>
      if process.descriptors fd = some .other then some (process.setDescriptor fd none, [])
      else none

/-- What holds between any two steps: a descriptor is open for a socket exactly when the socket has
its number, and a number is valid or `INVALID_SOCKET`.
-/
structure Owns (process : Process θ) : Prop where
  owned
    : ∀ object fd,
        process.descriptors fd = some (.socket object)
        ↔ ∃ socket, process.sockets object = some socket ∧ socket.s = (fd : Int)
  valid
    : ∀ object socket,
        process.sockets object = some socket → socket.s = invalidSocket ∨ 0 ≤ socket.s

/-- Whether a socket has a descriptor. -/
def holds (process : Process θ) (object : θ) : Bool :=
  (process.sockets object).any fun socket => socket.s ≠ invalidSocket

end Process

/-- The socket that a trace is of. -/
def Trace.object : Trace θ → θ
  | .opened object _ => object
  | .called object _ _ _ => object

/-- A call is made on a descriptor of the socket's own, or on no descriptor and then not to close
it.
-/
def Trace.Proper : Trace θ → Prop
  | .opened _ _ => True
  | .called object call s found =>
      found = some (.socket object) ∨ s = invalidSocket ∧ call ≠ .close

/-- A descriptor was opened for the socket. -/
def Trace.opens (object : θ) [DecidableEq θ] : Trace θ → Bool
  | .opened other _ => other = object
  | _ => false

/-- The socket closed a descriptor. -/
def Trace.closes (object : θ) [DecidableEq θ] : Trace θ → Bool
  | .called other call _ _ => other = object ∧ call = .close
  | _ => false

/-- The history of a process with sound descriptors: every call was proper, and each socket closed
all that were opened for it, but for the one that it has.
-/
structure Sound [DecidableEq θ] (history : List (Trace θ)) (process : Process θ) : Prop where
  owns : process.Owns
  proper : ∀ trace ∈ history, trace.Proper
  balance
    : ∀ object,
        history.countP (Trace.opens object)
        = history.countP (Trace.closes object) + (process.holds object).toNat

section Steps

variable [DecidableEq θ] {process : Process θ} {history : List (Trace θ)} {object : θ}

omit [DecidableEq θ] in
/-- Calls of a socket on its descriptor are proper. -/
theorem Process.Owns.proper (owns : process.Owns) {socket : PhysicalSocket}
    (exists_ : process.sockets object = some socket) {calls : List SystemCall}
    (notClose : socket.s = invalidSocket → .close ∉ calls)
    : ∀ trace ∈ process.trace object socket.s calls, trace.Proper := by
  intro trace member
  obtain ⟨call, called, rfl⟩ := List.mem_map.mp member
  obtain invalid | valid := owns.valid object socket exists_
  · exact .inr ⟨invalid, fun isClose => notClose invalid (isClose ▸ called)⟩
  · left
    rw [Process.found, if_pos valid, owns.owned]
    exact ⟨socket, exists_, (Int.toNat_of_nonneg valid).symm⟩

/-- A socket changes without its descriptor. -/
theorem Process.Owns.put (owns : process.Owns) {next : Option PhysicalSocket}
    (same
      : ∀ fd : Nat,
          (∃ socket, next = some socket ∧ socket.s = (fd : Int))
          ↔ ∃ socket, process.sockets object = some socket ∧ socket.s = (fd : Int))
    (valid : ∀ socket, next = some socket → socket.s = invalidSocket ∨ 0 ≤ socket.s)
    : (process.put object next).Owns := by
  refine ⟨?_, ?_⟩
  · intro other fd
    by_cases isObject : other = object
    · subst isObject
      simpa [Process.put] using (owns.owned other fd).trans (same fd).symm
    · simpa [Process.put, isObject] using owns.owned other fd
  · intro other socket exists_
    by_cases isObject : other = object
    · subst isObject
      exact valid socket (by simpa [Process.put] using exists_)
    · exact owns.valid other socket (by simpa [Process.put, isObject] using exists_)

/-- A socket gets a descriptor that was of no socket, or gives up the one that it has. -/
theorem Process.Owns.exchange (owns : process.Owns) {fd : Nat} {opener : Option (Opener θ)}
    {next : PhysicalSocket}
    (before
      : ∀ other, process.descriptors fd = some (.socket other) → other = object)
    (old
      : ∀ socket : PhysicalSocket, process.sockets object = some socket →
          socket.s = invalidSocket ∨ socket.s = (fd : Int))
    (new
      : opener = some (.socket object) ∧ next.s = (fd : Int)
        ∨ opener = none ∧ next.s = invalidSocket)
    : ((process.setDescriptor fd opener).put object (some next)).Owns := by
  have mine (number : Nat) (has : next.s = (number : Int))
      : number = fd ∧ opener = some (.socket object) := by
    rw [invalidSocket] at new
    obtain ⟨taken, number_eq⟩ | ⟨-, none_⟩ := new
    · exact ⟨by omega, taken⟩
    · omega
  refine ⟨?_, ?_⟩
  · intro other number
    by_cases isObject : other = object
    · subst isObject
      by_cases here : number = fd
      · subst here
        have taken : opener = some (.socket other) ↔ next.s = (number : Int) := by
          refine ⟨?_, fun has => (mine number has).2⟩
          rintro rfl
          simpa using new
        simpa [Process.put, Process.setDescriptor] using taken
      · have gone : process.descriptors number ≠ some (.socket other) := by
          rw [Ne, owns.owned]
          rintro ⟨socket, exists_, has⟩
          have number_eq := old socket exists_
          rw [invalidSocket] at number_eq
          omega
        have not : next.s ≠ (number : Int) := fun has => here (mine number has).1
        simp [Process.put, Process.setDescriptor, here, gone, not]
    · by_cases here : number = fd
      · subst here
        have notOpener : opener ≠ some (.socket other) := by
          rintro rfl
          simp [isObject] at new
        have notOther : ¬ ∃ socket, process.sockets other = some socket ∧ socket.s = (number : Int)
            := fun has => isObject (before other ((owns.owned other number).mpr has))
        simpa [Process.put, Process.setDescriptor, isObject, notOpener] using notOther
      · simpa [Process.put, Process.setDescriptor, isObject, here] using owns.owned other number
  · intro other socket exists_
    by_cases isObject : other = object
    · subst isObject
      obtain rfl : next = socket := by simpa [Process.put] using exists_
      obtain ⟨-, number⟩ | ⟨-, none_⟩ := new
      · exact .inr (by omega)
      · exact .inl none_
    · exact owns.valid other socket
        (by simpa [Process.put, Process.setDescriptor, isObject] using exists_)

omit [DecidableEq θ] in
/-- Other code opens or closes a descriptor that is of no socket. -/
theorem Process.Owns.other (owns : process.Owns) {fd : Nat} {opener : Option (Opener θ)}
    (before : ∀ object, process.descriptors fd ≠ some (.socket object))
    (after : ∀ object, opener ≠ some (.socket object))
    : (process.setDescriptor fd opener).Owns := by
  refine ⟨?_, owns.valid⟩
  intro object number
  change _ ↔ ∃ socket, process.sockets object = some socket ∧ _
  rw [← owns.owned]
  by_cases here : number = fd
  · subst here
    simp [Process.setDescriptor, before object, after object]
  · simp [Process.setDescriptor, here]

/-- One socket moves: what there is to check of it. -/
theorem Sound.extend (sound : Sound history process) {next : Process θ} {traces : List (Trace θ)}
    (object : θ) (owns : next.Owns) (proper : ∀ trace ∈ traces, trace.Proper)
    (own : ∀ trace ∈ traces, trace.object = object)
    (others : ∀ other, other ≠ object → next.holds other = process.holds other)
    (balance
      : traces.countP (Trace.opens object) + (process.holds object).toNat
        = traces.countP (Trace.closes object) + (next.holds object).toNat)
    : Sound (history ++ traces) next := by
  refine ⟨owns, ?_, ?_⟩
  · intro trace member
    obtain earlier | later := List.mem_append.mp member
    · exact sound.proper trace earlier
    · exact proper trace later
  · intro other
    have before := sound.balance other
    rw [List.countP_append, List.countP_append]
    by_cases isObject : other = object
    · subst isObject
      omega
    · have opens : traces.countP (Trace.opens other) = 0 := by
        rw [List.countP_eq_zero]
        intro trace member opens
        have same := own trace member
        cases trace <;> simp_all [Trace.opens, Trace.object]
      have closes : traces.countP (Trace.closes other) = 0 := by
        rw [List.countP_eq_zero]
        intro trace member closes
        have same := own trace member
        cases trace <;> simp_all [Trace.closes, Trace.object]
      rw [opens, closes, others other isObject]
      omega

/-- A socket that is put into a process is all that changes there. -/
theorem Process.holds_put (process : Process θ) (object : θ) (next : Option PhysicalSocket)
    : (process.put object next).holds object = next.any (fun socket => socket.s ≠ invalidSocket)
      ∧ ∀ other, other ≠ object → (process.put object next).holds other = process.holds other := by
  refine ⟨by simp [Process.holds, Process.put], ?_⟩
  intro other different
  simp [Process.holds, Process.put, different]

/-- `close` gives up the descriptor, if there is one, and leaves none. -/
theorem Sound.close (sound : Sound history process) {socket : PhysicalSocket}
    (exists_ : process.sockets object = some socket) (closed : SystemResult)
    : Sound (history ++ (process.close object socket closed).2.2)
        (process.close object socket closed).1
      ∧ (process.close object socket closed).1.sockets object
        = some (process.close object socket closed).2.1
      ∧ (process.close object socket closed).2.1.s = invalidSocket := by
  unfold Process.close
  split_ifs with invalid
  · exact ⟨by simpa using sound, exists_, invalid⟩
  · dsimp only
    have valid := (sound.owns.valid object socket exists_).resolve_left invalid
    have number : socket.s = (socket.s.toNat : Int) := (Int.toNat_of_nonneg valid).symm
    have mine : process.descriptors socket.s.toNat = some (.socket object) :=
      (sound.owns.owned object _).mpr ⟨socket, exists_, number⟩
    obtain ⟨held, others⟩ :=
      (process.setDescriptor socket.s.toNat none).holds_put object
        (some { socket.updateLastError closed.errno with s := invalidSocket })
    refine ⟨sound.extend object ?_ ?_ ?_ others ?_, by simp [Process.put], rfl⟩
    · refine sound.owns.exchange ?_ ?_ (.inr ⟨rfl, rfl⟩)
      · intro other opener
        rw [mine] at opener
        cases opener
        rfl
      · intro same isSocket
        rw [exists_] at isSocket
        cases isSocket
        exact .inr number
    · exact sound.owns.proper exists_ fun isInvalid => absurd isInvalid invalid
    · simp [Process.trace, Trace.object]
    · rw [held]
      simp [Process.holds, exists_, invalid, Process.trace, Trace.opens, Trace.closes]

/-- The system opens a descriptor for a socket that has none, which then makes calls on it. -/
theorem Sound.acquire (sound : Sound history process) (fd : Nat)
    (free : ∀ other, process.descriptors fd ≠ some (.socket other))
    (none_ : process.holds object = false) (dgram : Bool) (errno : Int) (calls : List SystemCall)
    (notClose : .close ∉ calls)
    : Sound
        (history
          ++ .opened object fd
            :: ((process.setDescriptor fd (some (.socket object))).put object
                (some ⟨fd, dgram, errno⟩)).trace object fd calls)
        ((process.setDescriptor fd (some (.socket object))).put object
          (some ⟨fd, dgram, errno⟩)) := by
  obtain ⟨held, others⟩ :=
    (process.setDescriptor fd (some (.socket object))).holds_put object (some ⟨fd, dgram, errno⟩)
  have owns
      : ((process.setDescriptor fd (some (.socket object))).put object
          (some ⟨fd, dgram, errno⟩)).Owns := by
    refine sound.owns.exchange ?_ ?_ (.inl ⟨rfl, rfl⟩)
    · intro other opener
      exact absurd opener (free other)
    · intro socket exists_
      simp only [Process.holds, exists_, Option.any_some, ne_eq, decide_not, Bool.not_eq_false',
        decide_eq_true_eq] at none_
      exact .inl none_
  have valid : ((fd : Int) = invalidSocket) = False := by simp [invalidSocket]
  refine sound.extend object owns ?_ ?_ others ?_
  · intro trace member
    obtain rfl | later := List.mem_cons.mp member
    · trivial
    · have has
          : ((process.setDescriptor fd (some (.socket object))).put object
              (some ⟨fd, dgram, errno⟩)).sockets object
            = some ⟨fd, dgram, errno⟩ := by simp [Process.put]
      exact owns.proper has (fun isInvalid => absurd isInvalid (by simp [valid])) trace later
  · simp [Process.trace, Trace.object]
  · have closes
        : (((process.setDescriptor fd (some (.socket object))).put object
            (some ⟨fd, dgram, errno⟩)).trace object fd calls).countP (Trace.closes object) = 0 := by
      rw [List.countP_eq_zero]
      intro trace member isClose
      obtain ⟨call, called, rfl⟩ := List.mem_map.mp member
      simp only [Trace.closes, true_and, decide_eq_true_eq] at isClose
      exact notClose (isClose ▸ called)
    have opens
        : (((process.setDescriptor fd (some (.socket object))).put object
            (some ⟨fd, dgram, errno⟩)).trace object fd calls).countP (Trace.opens object) = 0 := by
      simp [Process.trace, Trace.opens]
    rw [held, List.countP_cons, List.countP_cons, closes, opens]
    simp [Trace.opens, Trace.closes, none_, valid]

/-- A socket changes without its descriptor, and calls are made on it. -/
theorem Sound.put (sound : Sound history process) (object : θ) (next : Option PhysicalSocket)
    (traces : List (Trace θ))
    (same
      : ∀ fd : Nat,
          (∃ socket, next = some socket ∧ socket.s = (fd : Int))
          ↔ ∃ socket, process.sockets object = some socket ∧ socket.s = (fd : Int))
    (valid : ∀ socket, next = some socket → socket.s = invalidSocket ∨ 0 ≤ socket.s)
    (proper : ∀ trace ∈ traces, trace.Proper)
    (own : ∀ trace ∈ traces, trace.object = object)
    (balance
      : traces.countP (Trace.opens object) + (process.holds object).toNat
        = traces.countP (Trace.closes object)
          + (next.any (fun socket => socket.s ≠ invalidSocket)).toNat)
    : Sound (history ++ traces) (process.put object next) := by
  obtain ⟨held, others⟩ := process.holds_put object next
  exact sound.extend object (sound.owns.put same valid) proper own others (by rw [held, balance])

/-- `create` leaves the socket with the descriptor that was opened, or with none. -/
theorem Sound.create (sound : Sound history process) {socket : PhysicalSocket}
    (exists_ : process.sockets object = some socket) {nonblocking dgram : Bool}
    {closed : SystemResult} {opened : Option Nat} {errno : Int}
    {result : Process θ × Bool × List (Trace θ)}
    (creates
      : result ∈ process.create object socket nonblocking dgram closed opened errno)
    : Sound (history ++ result.2.2) result.1
      ∧ (result.2.1 = false → result.1.sockets object = some ⟨invalidSocket, dgram, errno⟩) := by
  obtain ⟨closes, has, invalid⟩ := sound.close exists_ closed
  have none_ : (process.close object socket closed).1.holds object = false := by
    simp [Process.holds, has, invalid]
  unfold Process.create at creates
  cases opened with
  | none =>
      obtain rfl := Option.some.inj creates
      refine ⟨?_, fun _ => by simp [Process.put]⟩
      have kept := closes.put object (some ⟨invalidSocket, dgram, errno⟩) [] ?_ ?_ (by simp)
        (by simp) (by simp [none_])
      · simpa using kept
      · intro fd
        simp [has, invalid]
      · intro after isAfter
        exact .inl (by rw [← Option.some.inj isAfter])
  | some fd =>
      dsimp only at creates
      by_cases free : (process.close object socket closed).1.descriptors fd = none
      · rw [if_pos free] at creates
        obtain rfl := Option.some.inj creates
        refine ⟨?_, fun fails => by cases fails⟩
        have taken := closes.acquire fd (by simp [free]) none_ dgram errno
          (if nonblocking then [.fcntl, .fcntl] else []) (by split_ifs <;> simp)
        rwa [List.append_assoc] at taken
      · rw [if_neg free] at creates
        cases creates

/-- A new socket has no descriptor. -/
theorem Sound.construct (sound : Sound history process) (none_ : process.sockets object = none)
    (socket : PhysicalSocket) (invalid : socket.s = invalidSocket)
    : Sound history (process.put object (some socket)) := by
  have kept := sound.put object (some socket) [] ?_ ?_ (by simp) (by simp)
    (by simp [Process.holds, none_, invalid])
  · simpa using kept
  · intro fd
    simp [none_, invalid, invalidSocket]
  · intro same isSocket
    exact .inl (Option.some.inj isSocket ▸ invalid)

/-- A socket without a descriptor is deleted. -/
theorem Sound.delete (sound : Sound history process) {socket : PhysicalSocket}
    (exists_ : process.sockets object = some socket) (invalid : socket.s = invalidSocket)
    : Sound history (process.put object none) := by
  have kept := sound.put object none [] ?_ (by simp) (by simp) (by simp)
    (by simp [Process.holds, exists_, invalid])
  · simpa using kept
  · intro fd
    simp [exists_, invalid, invalidSocket]

/-- Other code changes a descriptor of its own. -/
theorem Sound.other (sound : Sound history process) {fd : Nat} {opener : Option (Opener θ)}
    (before : ∀ object, process.descriptors fd ≠ some (.socket object))
    (after : ∀ object, opener ≠ some (.socket object))
    : Sound (history ++ []) (process.setDescriptor fd opener) := by
  rw [List.append_nil]
  exact ⟨sound.owns.other before after, sound.proper, sound.balance⟩

/-- Every step keeps the descriptors sound, by cases on what happens. -/
theorem Sound.step (sound : Sound history process) {event : Event θ}
    {reached : Process θ × List (Trace θ)} (enabled : reached ∈ process.step event)
    : Sound (history ++ reached.2) reached.1 := by
  cases event with
  | construct object memory =>
      cases exists_ : process.sockets object with
      | some socket => simp [Process.step, exists_] at enabled
      | none =>
          obtain rfl
              : (process.put object (some ⟨invalidSocket, memory, 0⟩), []) = reached := by
            simpa [Process.step, exists_] using enabled
          simpa using sound.construct exists_ ⟨invalidSocket, memory, 0⟩ rfl
  | adopt object fd dgram =>
      cases exists_ : process.sockets object with
      | some socket => simp [Process.step, exists_] at enabled
      | none =>
          simp only [Process.step, exists_] at enabled
          split_ifs at enabled with free
          · obtain rfl := Option.some.inj enabled
            exact sound.acquire fd (by simp [free]) (by simp [Process.holds, exists_]) dgram 0
              [.getsockopt] (by simp)
          · cases enabled
  | create object nonblocking dgram closed opened errno =>
      obtain ⟨socket, exists_, created, creates, rfl⟩
          : ∃ socket, process.sockets object = some socket
              ∧ ∃ created
                  ∈ process.create object socket nonblocking dgram closed opened errno,
                (created.1, created.2.2) = reached := by
        simpa [Process.step, Option.bind_eq_some_iff] using enabled
      exact (sound.create exists_ creates).1
  | createSocket object nonblocking dgram opened errno =>
      cases exists_ : process.sockets object with
      | some socket => simp [Process.step, exists_] at enabled
      | none =>
          obtain ⟨created, creates, rfl⟩
              : ∃ created
                  ∈ (process.put object (some ⟨invalidSocket, false, 0⟩)).create object
                      ⟨invalidSocket, false, 0⟩ nonblocking dgram ⟨0, 0⟩ opened errno,
                (if created.2.1 then created.1 else created.1.put object none, created.2.2)
                  = reached := by
            simpa [Process.step, exists_, Option.bind_eq_some_iff] using enabled
          have new := sound.construct exists_ ⟨invalidSocket, false, 0⟩ rfl
          obtain ⟨made, failed⟩ := new.create (by simp [Process.put]) creates
          dsimp only
          split_ifs with success
          · exact made
          · exact made.delete (failed (by simpa using success)) rfl
  | call object method errno =>
      obtain ⟨socket, exists_, rfl⟩
          : ∃ socket, process.sockets object = some socket
              ∧ (process.put object
                  (some (if method.updates then socket.updateLastError errno else socket)),
                process.trace object socket.s method.calls) = reached := by
        simpa [Process.step, Option.bind_eq_some_iff] using enabled
      have same : (if method.updates then socket.updateLastError errno else socket).s = socket.s := by
        split_ifs <;> rfl
      refine sound.put object _ _ ?_ ?_
        (sound.owns.proper exists_ fun _ => method.close_notMem_calls) ?_ ?_
      · intro fd
        simp [exists_, same]
      · intro after isAfter
        rw [← Option.some.inj isAfter, same]
        exact sound.owns.valid object socket exists_
      · simp [Process.trace, Trace.object]
      · have closes
            : (process.trace object socket.s method.calls).countP (Trace.closes object) = 0 := by
          rw [List.countP_eq_zero]
          intro trace member isClose
          obtain ⟨call, called, rfl⟩ := List.mem_map.mp member
          simp only [Trace.closes, true_and, decide_eq_true_eq] at isClose
          exact method.close_notMem_calls (isClose ▸ called)
        have opens
            : (process.trace object socket.s method.calls).countP (Trace.opens object) = 0 := by
          simp [Process.trace, Trace.opens]
        rw [closes, opens]
        simp [Process.holds, exists_, same]
  | close object closed =>
      obtain ⟨socket, exists_, rfl⟩
          : ∃ socket, process.sockets object = some socket
              ∧ ((process.close object socket closed).1, (process.close object socket closed).2.2)
                = reached := by
        simpa [Process.step, Option.bind_eq_some_iff] using enabled
      exact (sound.close exists_ closed).1
  | destroy object closed =>
      obtain ⟨socket, exists_, rfl⟩
          : ∃ socket, process.sockets object = some socket
              ∧ ((process.close object socket closed).1.put object none,
                  (process.close object socket closed).2.2)
                = reached := by
        simpa [Process.step, Option.bind_eq_some_iff] using enabled
      obtain ⟨closes, has, invalid⟩ := sound.close exists_ closed
      exact closes.delete has invalid
  | otherOpens fd =>
      simp only [Process.step] at enabled
      split_ifs at enabled with free
      · obtain rfl := Option.some.inj enabled
        exact sound.other (by simp [free]) (by simp)
      · cases enabled
  | otherCloses fd =>
      simp only [Process.step] at enabled
      split_ifs at enabled with other
      · obtain rfl := Option.some.inj enabled
        exact sound.other (by simp [other]) (by simp)
      · cases enabled

/-- A process without sockets is sound. -/
theorem Sound.start (others : Nat → Bool) : Sound [] (Process.start others : Process θ) := by
  refine ⟨⟨?_, ?_⟩, by simp, by simp [Process.start, Process.holds]⟩
  · intro object fd
    simp only [Process.start]
    split_ifs <;> simp
  · intro object socket exists_
    cases exists_

/-- In every run of any number of socket objects, whatever the system answers and other code does
with descriptors of its own: a socket makes system calls on a descriptor that was opened for it and
is still open, or on `INVALID_SOCKET`, which it never closes; a descriptor is open for a socket
exactly while the socket holds its number, so no socket has two; and every descriptor that was ever
opened for a socket was closed by it once, but for the one that it holds.
-/
theorem descriptors_closed_once (others : Nat → Bool) {events : List (Event θ)}
    {reached : Process θ × List (Trace θ)}
    (runs : reached ∈ runSchedule Process.step (Process.start others) events)
    : (∀ trace ∈ reached.2, trace.Proper)
      ∧ (∀ object fd,
          reached.1.descriptors fd = some (.socket object)
          ↔ ∃ socket, reached.1.sockets object = some socket ∧ socket.s = (fd : Int))
      ∧ ∀ object,
          reached.2.countP (Trace.opens object)
          = reached.2.countP (Trace.closes object) + (reached.1.holds object).toNat := by
  have sound : Sound reached.2 reached.1 :=
    runSchedule_invariant _ (fun _ _ _ _ enabled holds => holds.step enabled) (Sound.start others)
      runs
  exact ⟨sound.proper, sound.owns.owned, sound.balance⟩

end Steps

/-- A socket is created, closed by itself and created again, while other code takes the number that
it had.
-/
def reusedNumber : List (Event Bool) :=
  [.createSocket true true true (some 3) 0, .call true (.recvFrom true) 11, .close true ⟨0, 0⟩,
    .otherOpens 3, .call true .sendTo 9, .create true false true ⟨0, 0⟩ (some 4) 0,
    .destroy true ⟨0, 0⟩]

/-- Witness: two descriptors were opened for the socket and closed, and the one of the other code is
open still.
-/
theorem descriptors_closed_once_reusedNumber
    : ∃ reached ∈ runSchedule Process.step (Process.start fun _ => false) reusedNumber,
        (∀ trace ∈ reached.2, trace.Proper)
        ∧ reached.2.countP (Trace.opens true) = 2
        ∧ reached.2.countP (Trace.closes true) = 2
        ∧ reached.1.descriptors 3 = some .other := by
  obtain ⟨reached, runs⟩ := Option.isSome_iff_exists.mp
    (show (runSchedule Process.step (Process.start fun _ => false) reusedNumber).isSome = true by
      decide)
  have observed
      : (runSchedule Process.step (Process.start fun _ => false) reusedNumber).map
          (fun reached =>
            (reached.2.countP (Trace.opens true), reached.1.holds true,
              reached.1.descriptors 3))
        = some (2, false, some .other) := by decide
  rw [runs] at observed
  obtain ⟨opened, held, third⟩
      : reached.2.countP (Trace.opens true) = 2
        ∧ reached.1.holds true = false
        ∧ reached.1.descriptors 3 = some .other := by simpa using observed
  obtain ⟨proper, -, balance⟩ := descriptors_closed_once _ runs
  have closed := balance true
  rw [held, opened] at closed
  exact ⟨reached, runs, proper, opened, closed.symm, third⟩

end RtcBase.UdpSocket
