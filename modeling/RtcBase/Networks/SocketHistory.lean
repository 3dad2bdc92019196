import RtcBase.Networks.SocketText

/-! What a socket address keeps of its past. `from_string` and the constructors overwrite every
field, except where `set_port` ignores a port that is out of range, and where an opening bracket is
never closed, which `from_string` accepts with nothing read.
-/

namespace RtcBase.Networks

open Library

namespace SocketAddress

/-- The text starts with a bracket that is nowhere closed. -/
def Unclosed (str : Text) : Prop := str.head? = some '[' ∧ ']' ∉ str

/-- The port that a text is read as fits in the field for it. -/
def PortInRange (port : Text) : Prop :=
  0 ≤ toInt32 (strtoul port) ∧ toInt32 (strtoul port) < 65536

section System

variable {inetPton4 : Text → Option (Vector Byte 4)} {inetPton6 : Text → Option (Vector Byte 16)}

/-- What `from_string` returns, and the address that it leaves when it returns true, do not depend
on the address before.
-/
def HistoryIndependent (inetPton4 : Text → Option (Vector Byte 4))
    (inetPton6 : Text → Option (Vector Byte 16)) (str : Text)
    : Prop :=
  ∀ one other : SocketAddress,
    ∃ accepted oneAfter otherAfter,
      one.ofText inetPton4 inetPton6 str = some (accepted, oneAfter)
      ∧ other.ofText inetPton4 inetPton6 str = some (accepted, otherAfter)
      ∧ (accepted = true → oneAfter = otherAfter)

/-- `from_string` accepts an unclosed bracket and changes nothing. -/
theorem ofText_unclosed {str : Text} (unclosed : Unclosed str) (address : SocketAddress)
    : address.ofText inetPton4 inetPton6 str = some (true, address) := by
  obtain ⟨first, absent⟩ := unclosed
  rw [List.head?_eq_getElem?] at first
  rw [ofText, first]
  simp [rfind, absent]

/-- A character of a text has a last place in it. -/
theorem exists_last {str : Text} {c : Char} (member : c ∈ str)
    : ∃ before after, str = before ++ c :: after ∧ c ∉ after := by
  obtain ⟨after, before, split, absent⟩ :=
    List.eq_append_cons_of_mem (List.mem_reverse.mpr member)
  refine ⟨before.reverse, after.reverse, ?_, by simpa using absent⟩
  have turned := congrArg List.reverse split
  simpa using turned

/-- What is neither unclosed nor has a host and a port is refused: there is no colon, or none behind
the last closing bracket.
-/
theorem ofText_refused {str : Text} (nonempty : str ≠ []) (closed : ¬ Unclosed str)
    (noPort : ¬ ∃ host port, HostPort str host port) (address : SocketAddress)
    : address.ofText inetPton4 inetPton6 str = some (false, address) := by
  obtain ⟨head, tail, rfl⟩ := List.exists_cons_of_ne_nil nonempty
  by_cases bracket : head = '['
  · subst bracket
    have closing : ']' ∈ '[' :: tail := by
      by_contra absent
      exact closed ⟨rfl, absent⟩
    obtain ⟨before, after, split, last⟩ := exists_last closing
    obtain ⟨host, rfl⟩ : ∃ host, before = '[' :: host := by
      cases before with
      | nil => cases split
      | cons first host =>
          rw [List.cons_append, List.cons.injEq] at split
          exact ⟨host, by rw [split.1]⟩
    have noColon : ':' ∉ ']' :: after := by
      intro member
      have later : ':' ∈ after := by simpa using member
      obtain ⟨rest, port, inner, first⟩ := List.eq_append_cons_of_mem later
      subst inner
      exact noPort ⟨host, port, split ▸ .bracketed host rest port last first⟩
    have starts : ('[' :: tail)[0]? = some '[' := rfl
    have absent : find (']' :: after) ':' 0 = none := by
      rw [find, List.drop_zero, if_neg noColon]
    rw [ofText, starts, Option.bind_eq_bind, Option.bind_some, if_pos rfl, split,
      rfind_append last]
    simp only [find_from, absent, Option.map_none]
    rfl
  · have noColon : ':' ∉ head :: tail := by
      intro member
      obtain ⟨host, port, split, first⟩ := List.eq_append_cons_of_mem member
      refine noPort ⟨host, port, split ▸ .plain host port first ?_⟩
      cases host with
      | nil => simp
      | cons first host =>
          rw [List.cons_append, List.cons.injEq] at split
          simpa [← split.1] using bracket
    simp [ofText, bracket, find, noColon]

/-- Reading a host and a port leaves no trace of the address before when the port is in range. -/
theorem setPort_setIPText_congr {port : Int} (inRange : 0 ≤ port ∧ port < 65536) (host : Text)
    (one other : SocketAddress)
    : (one.setPort port).setIPText inetPton4 inetPton6 host
      = (other.setPort port).setIPText inetPton4 inetPton6 host := by
  have known : ¬ (port < 0 ∨ port ≥ 65536) := by omega
  simp only [setPort, if_neg known]
  rfl

/-- `from_string` does not depend on the address before exactly when no bracket is left open and the
port, where one is read, is in range.
-/
theorem historyIndependent_iff {str : Text} (nonempty : str ≠ [])
    : HistoryIndependent inetPton4 inetPton6 str
      ↔ ¬ Unclosed str ∧ ∀ host port, HostPort str host port → PortInRange port := by
  constructor
  · intro independent
    -- the two addresses differ in their ports, which an unread port leaves as they are
    obtain ⟨accepted, oneAfter, otherAfter, oneRun, otherRun, same⟩ :=
      independent ⟨[], .unspec, 0, 0, false⟩ ⟨[], .unspec, 1, 0, false⟩
    refine ⟨?_, ?_⟩
    · intro unclosed
      rw [ofText_unclosed unclosed, Option.some.injEq, Prod.mk.injEq] at oneRun otherRun
      obtain ⟨rfl, rfl⟩ := oneRun
      obtain ⟨-, rfl⟩ := otherRun
      exact absurd (same rfl) (by decide)
    · intro host port split
      by_contra outOfRange
      have ignored : toInt32 (strtoul port) < 0 ∨ toInt32 (strtoul port) ≥ 65536 := by
        simp only [PortInRange, not_and, not_lt] at outOfRange
        omega
      rw [ofText_hostPort split, Option.some.injEq, Prod.mk.injEq, setPort, if_pos ignored]
        at oneRun otherRun
      obtain ⟨rfl, rfl⟩ := oneRun
      obtain ⟨-, rfl⟩ := otherRun
      exact absurd (congrArg SocketAddress.port (same rfl)) (by simp [setIPText])
  · rintro ⟨closed, inRange⟩ one other
    by_cases readable : ∃ host port, HostPort str host port
    · obtain ⟨host, port, split⟩ := readable
      refine ⟨true, _, _, ofText_hostPort split one, ofText_hostPort split other, fun _ => ?_⟩
      exact setPort_setIPText_congr (inRange host port split) host one other
    · exact ⟨false, one, other, ofText_refused nonempty closed readable one,
        ofText_refused nonempty closed readable other, fun refused => by cases refused⟩

/-- Setting the port of addresses that differ in nothing else makes them the same exactly when the
port is in range.
-/
theorem setPort_forgets_iff (hostname : Text) (ip : IPAddress) (literal : Bool) (port : Int)
    : (∀ memory other : BitVec 16,
        setPort ⟨hostname, ip, memory, 0, literal⟩ port
        = setPort ⟨hostname, ip, other, 0, literal⟩ port)
      ↔ 0 ≤ port ∧ port < 65536 := by
  constructor
  · intro forgets
    by_contra outOfRange
    have ignored : port < 0 ∨ port ≥ 65536 := by omega
    have same := congrArg SocketAddress.port (forgets 0 1)
    simp [setPort, if_pos ignored] at same
  · intro inRange memory other
    have known : ¬ (port < 0 ∨ port ≥ 65536) := by omega
    simp only [setPort, if_neg known]

/-- Where the fields of a socket address come from. `from_string` leaves nothing of the address
before exactly when the text opens no bracket without closing it and has no port out of range. A
constructor leaves nothing of the memory of the object exactly when its port is in range.
-/
theorem fields_from_arguments_iff (inetPton4 : Text → Option (Vector Byte 4))
    (inetPton6 : Text → Option (Vector Byte 16)) (host : ByteBuffer.Host)
    : (∀ str, str ≠ [] →
        (HistoryIndependent inetPton4 inetPton6 str
          ↔ ¬ Unclosed str ∧ ∀ host port, HostPort str host port → PortInRange port))
      ∧ (∀ hostname port,
        (∀ memory other,
          constructText inetPton4 inetPton6 memory hostname port
          = constructText inetPton4 inetPton6 other hostname port)
        ↔ 0 ≤ port ∧ port < 65536)
      ∧ (∀ ip port,
        (∀ memory other, constructHostOrder host memory ip port
          = constructHostOrder host other ip port)
        ↔ 0 ≤ port ∧ port < 65536)
      ∧ ∀ ip port,
        (∀ memory other, construct memory ip port = construct other ip port)
        ↔ 0 ≤ port ∧ port < 65536 :=
  ⟨fun _ => historyIndependent_iff, fun _ port => setPort_forgets_iff _ _ _ port,
    fun ip port => setPort_forgets_iff [] (.ofHostOrder host ip) false port,
    fun ip port => setPort_forgets_iff [] ip false port⟩

end System

/-- The text `h:80` is read the same way over any address. -/
theorem fields_from_arguments_plain
    : HistoryIndependent fullPton4 fullPton6 ['h', ':', '8', '0'] := by
  let host : ByteBuffer.Host :=
    ⟨.little, true, fun n => List.replicate n 0, fun _ => List.length_replicate⟩
  apply ((fields_from_arguments_iff fullPton4 fullPton6 host).1 _ (by decide)).mpr
  refine ⟨fun unclosed => absurd unclosed.1 (by decide), ?_⟩
  generalize shown : ['h', ':', '8', '0'] = str
  intro host port split
  cases split with
  | bracketed host rest port last first => simp at shown
  | plain host port first noBracket =>
      have colon : some 1 = some host.length := by
        rw [← @find_append host port ':' first, ← shown]
        decide
      have digits : port = (host ++ ':' :: port).drop (host.length + 1) := by
        rw [← List.drop_drop, List.drop_left]
        rfl
      rw [digits, ← shown, ← Option.some.inj colon]
      unfold PortInRange
      decide

/-- The text `[::1` is accepted and leaves the address as it was, the text `h:65536` is accepted and
leaves the port, and a constructor with the port -1 leaves the memory of the object in its place.
-/
theorem fields_from_before
    : ¬ HistoryIndependent fullPton4 fullPton6 ['[', ':', ':', '1']
      ∧ ¬ HistoryIndependent fullPton4 fullPton6 ['h', ':', '6', '5', '5', '3', '6']
      ∧ construct 0 .unspec (-1) ≠ construct 1 .unspec (-1) := by
  refine ⟨?_, ?_, by decide⟩
  · rw [historyIndependent_iff (by decide)]
    exact fun ⟨closed, _⟩ => closed ⟨rfl, by decide⟩
  · rw [historyIndependent_iff (by decide)]
    rintro ⟨-, inRange⟩
    have port := inRange ['h'] ['6', '5', '5', '3', '6']
      (.plain ['h'] _ (by decide) (by decide))
    exact absurd port.2 (by decide)

end SocketAddress

end RtcBase.Networks
