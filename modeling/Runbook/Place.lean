/-!
# Places in the file system

A path leads step by step to a place. What stands there is known for the places
that every system has; all else is taken to be missing until it is made.

* `Place` — a place, and `Place.ofString` — the place of a path.
* `Place.occupant` — what stands there.
* `Place.makeAll` — making the directories along a path.
-/

namespace Runbook

/-- Where a path begins. -/
inductive Base where
  /-- at the root -/
  | root
  /-- in the directory in which the program works -/
  | here
  deriving DecidableEq, Repr

/-- A place. -/
structure Place where
  /-- where its path begins -/
  base : Base
  /-- the names on the way -/
  names : List String
  deriving DecidableEq, Repr

/-- What becomes of what is written to a file that holds nothing. -/
inductive Sink where
  /-- it is dropped -/
  | drops
  /-- there is no room for it -/
  | full
  /-- nothing can be written -/
  | closed
  deriving DecidableEq, Repr

/-- What stands at a place. -/
inductive Occupant where
  /-- a directory -/
  | directory
  /-- a file with something in it -/
  | file
  /-- a file that holds nothing and keeps nothing -/
  | sink (s : Sink)
  /-- nothing -/
  | nothing
  deriving DecidableEq, Repr

namespace Place

/-! ## Paths -/

/-- The steps of a path. -/
def steps (path : String) : List String := (path.splitOn "/").filter fun s => s ≠ "" && s ≠ "."

/-- Where a path begins. -/
def start (path : String) : Place := ⟨if path.startsWith "/" then .root else .here, []⟩

/-- The place to which a step leads. Above the root is the root; what is above
the directory in which the program works is not told apart from it. -/
def step (p : Place) (name : String) : Place :=
  { p with names := if name = ".." then p.names.dropLast else p.names ++ [name] }

/-- The place of a path. -/
def ofString (path : String) : Place := (steps path).foldl step (start path)

/-- The directory of a place. -/
def parent (p : Place) : Place := p.step ".."

/-- The directory of a place is where one more step leads to it. -/
@[simp] theorem parent_step (p : Place) {name : String} (down : name ≠ "..") :
    (p.step name).parent = p := by
  simp [parent, step, down]

/-- Whether the place is the directory of that name at the root, or in it. -/
def isUnder (p : Place) (name : String) : Bool := p.base = .root && p.names.head? = some name

/-! ## What every system has -/

/-- The places of several paths with blanks between them. -/
def places (paths : String) : List Place := (paths.splitOn " ").map ofString

/-- Directories. -/
def directories : List Place :=
  places ". / /bin /boot /dev /dev/fd /dev/pts /dev/shm /etc /home /lib /media /mnt /opt"
    ++ places "/proc /proc/1 /proc/self /proc/self/fd /proc/sys /root /run /sbin /srv"
    ++ places "/sys /sys/block /sys/bus /sys/class /sys/dev /sys/devices /sys/fs /sys/kernel"
    ++ places "/tmp /usr /usr/bin /usr/lib /usr/local /usr/local/bin /usr/sbin /usr/share"
    ++ places "/var /var/cache /var/lib /var/log /var/tmp"

/-- Files with something in them. -/
def files : List Place :=
  places "/bin/cat /bin/ls /bin/sh /etc/fstab /etc/group /etc/hostname /etc/hosts /etc/issue"
    ++ places "/etc/os-release /etc/passwd /etc/profile /etc/resolv.conf /etc/shadow"
    ++ places "/usr/bin/env"

/-- Files that hold nothing and keep nothing. -/
def sinks : List (Place × Sink) :=
  (places "/dev/null /dev/random /dev/tty /dev/urandom /dev/zero").map (·, .drops)
    ++ (places "/dev/full").map (·, .full)
    ++ (places "/proc/cpuinfo /proc/meminfo /proc/mounts /proc/uptime /proc/version").map
      (·, .closed)

/-- What stands at a place. -/
def occupant (p : Place) : Occupant :=
  if directories.contains p then .directory
  else if files.contains p then .file
  else (sinks.lookup p).elim .nothing .sink

end Place

/-- Why a directory cannot be made. -/
inductive DirectoryFault where
  /-- its path has a character that no path can have -/
  | zeroInPath
  /-- something else is in its place -/
  | occupied
  /-- its path leads through something that is no directory -/
  | blocked
  /-- a name on its path is too long -/
  | longName
  /-- it would be in a directory that the system fills -/
  | unavailable
  /-- it would be in a directory that is only read -/
  | readOnly
  deriving DecidableEq, Repr

/-- The wording of the fault. -/
def DirectoryFault.message : DirectoryFault → String
  | zeroInPath => "file name contained an unexpected NUL byte"
  | occupied => "File exists (os error 17)"
  | blocked => "Not a directory (os error 20)"
  | longName => "File name too long (os error 36)"
  | unavailable => "No such file or directory (os error 2)"
  | readOnly => "Read-only file system (os error 30)"

namespace Place

/-- How many bytes a name can have. -/
def nameLimit : Nat := 255

/-- Why nothing can be made at a place. -/
def sealed? (p : Place) : Option DirectoryFault :=
  if p.isUnder "proc" then some .unavailable
  else if p.isUnder "sys" then some .readOnly
  else none

/-- Make the directory to which steps lead, with those on the way; the places of
all of them. -/
def makeAll (p : Place) : List String → Except DirectoryFault (List Place)
  | [] => .ok [p]
  | name :: rest =>
    let next := p.step name
    if nameLimit < name.utf8ByteSize then .error .longName
    else
      match next.occupant with
      | .directory => (next.makeAll rest).map (p :: ·)
      | .nothing =>
        match next.sealed? with
        | some f => .error f
        | none => (next.makeAll rest).map (p :: ·)
      -- the last step finds its place taken, any other finds no directory to go on in
      | _ => .error (if rest.isEmpty then .occupied else .blocked)

/-- Make the directory of the file with that path; the places of the directories
on the way. -/
def makeDirectoryOf (path : String) : Except DirectoryFault (List Place) :=
  let directory := (steps path).dropLast
  if directory.any (·.toList.contains '\x00') then .error .zeroInPath
  else (start path).makeAll directory

end Place

end Runbook
