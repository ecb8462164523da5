import LinuxMonitor.Library.CString

/-!
# The name a client reports under

The client looks its user id up in `/etc/passwd` once, at the start, and reports
under the user name found, or under `unknown_user` when there is none.

The search tokenizes each line at the colons and compares the third token.  It
ends because each read makes progress: more fuel than the file has characters
changes nothing (`searchPasswd_fuel`).
-/

set_option autoImplicit false

namespace LinuxMonitor.Client

open Library

/-- `sizeof(line)` -/
def lineSize : ℕ := 1024

/-- The body of the loop of `my_getpwuid`: the name, when the third token of the line
is the user id. -/
def matchLine (uid : UInt32) (line : Text) : Option Text :=
  let (name, rest) := strtok ':' (cString line)
  let (_, rest) := strtok ':' rest
  let (uidStr, _) := strtok ':' rest
  match uidStr with
  | some uidStr => if UInt32.ofInt (atoi uidStr) = uid then some (name.getD []) else none
  | none => none

/-- The loop `while (fgets(line, sizeof(line), fp))` of `my_getpwuid`. -/
def searchPasswd (uid : UInt32) : ℕ → Text → Option Text
  | 0, _ => none
  | fuel + 1, file =>
      match fgets lineSize file with
      | none => none
      | some (line, rest) =>
          match matchLine uid line with
          | some name => some name
          | none => searchPasswd uid fuel rest

/-- `my_getpwuid(uid)->pw_name`: nothing when the file cannot be opened or no line has
the user id. -/
def myGetpwuid (passwd : Option Text) (uid : UInt32) : Option Text :=
  match passwd with
  | none => none
  | some file => searchPasswd uid file.length file

/-- A client machine: its `/etc/passwd`, if it can be opened, and the user id the
client runs under. -/
structure Machine where
  passwd : Option Text
  uid : UInt32

/-- `pwd ? pwd->pw_name : "unknown_user"` -/
def Machine.username (m : Machine) : Text :=
  (myGetpwuid m.passwd m.uid).getD "unknown_user".toList

/-- The search has ended when the fuel is used up. -/
theorem searchPasswd_fuel (uid : UInt32) {fuel : ℕ} {file : Text} (enough : file.length ≤ fuel) :
    searchPasswd uid fuel file = searchPasswd uid file.length file := by
  induction fuel using Nat.strong_induction_on generalizing file with
  | _ fuel ih =>
      cases file with
      | nil => cases fuel <;> rfl
      | cons c t =>
          obtain ⟨fuel, rfl⟩ : ∃ fuel', fuel = fuel' + 1 :=
            ⟨fuel - 1, by rw [List.length_cons] at enough; omega⟩
          rw [List.length_cons, searchPasswd, searchPasswd]
          cases read : fgets lineSize (c :: t) with
          | none => rfl
          | some pair =>
              obtain ⟨line, rest⟩ := pair
              have shorter := fgets_length_lt (by decide) read
              rw [List.length_cons] at shorter enough
              have more := @ih fuel (by omega) rest (by omega)
              have less := @ih t.length (by omega) rest (by omega)
              cases matched : matchLine uid line with
              | some name => simp only [matched]
              | none => simp only [matched, more, less]

/-- The first line of a usual file belongs to the superuser. -/
example : (Machine.mk (some "root:x:0:0:root:/root:/bin/bash\n".toList) 0).username =
    "root".toList := by decide

end LinuxMonitor.Client
