import ScriptBundler.Disk.Access
import ScriptBundler.Shell.Bytes
/-!
# The machine — queues of bytes, and what commands do to them

Commands that run together share queues of bytes: what one of them writes to a queue, another one
reads from it, and what is read is gone. A command's descriptors lead to queues, to the end of a
file or nowhere. Commands also change the disk.
-/

namespace ScriptBundler.Shell

/-- Where a descriptor leads. -/
inductive Channel where
  /-- To a queue. -/
  | queue (index : Nat)
  /-- To the end of a file. -/
  | file (path : String)
  /-- Nowhere: nothing comes from there, and what goes there is lost. -/
  | nowhere
  deriving DecidableEq

/-- Where the descriptors of a command lead; the latest entry for one counts. -/
abbrev Channels := List (Nat × Channel)

/-- Where a descriptor leads, if it is open. -/
def Channels.at? (channels : Channels) (descriptor : Nat) : Option Channel :=
  channels.lookup descriptor

/-- Bytes on their way. -/
structure Queue where
  /-- What is read first. -/
  front : Bytes := []
  /-- What has been written since, the last byte first, so that writing costs no more than what is
  written. -/
  back : Bytes := []

/-- The bytes in a queue, in the order in which they are read. -/
def Queue.toBytes (queue : Queue) : Bytes :=
  if queue.back.isEmpty then queue.front else queue.front ++ queue.back.reverse

/-- The queue with bytes written to it. -/
def Queue.push (queue : Queue) (bytes : Bytes) : Queue :=
  { queue with back := bytes.reverse ++ queue.back }

/-- What is written is read behind what was there before. -/
theorem Queue.toBytes_push (queue : Queue) (bytes : Bytes) :
    (queue.push bytes).toBytes = queue.toBytes ++ bytes := by
  cases queue with
  | mk front back => cases back <;> cases bytes <;> simp [Queue.push, Queue.toBytes]

/-- The queues and the disk. -/
structure Machine where
  /-- The disk. -/
  disk : Disk
  /-- The queues. -/
  queues : Array Queue

namespace Machine

variable (machine : Machine)

/-- Opens a queue that holds some bytes. -/
def openQueue (bytes : Bytes) : Machine × Channel :=
  ({ machine with queues := machine.queues.push { front := bytes } }, .queue machine.queues.size)

/-- What a channel holds. -/
def contents (channel : Option Channel) : Bytes :=
  match channel with
  | some (.queue index) => (machine.queues[index]?.map Queue.toBytes).getD []
  | _ => []

/-- Leaves these bytes in a queue. -/
def refill (channel : Option Channel) (bytes : Bytes) : Machine :=
  match channel with
  | some (.queue index) =>
    { machine with queues := machine.queues.setIfInBounds index { front := bytes } }
  | _ => machine

/-- Everything that comes from a channel, which is then empty. -/
def drain (channel : Option Channel) : Machine × Bytes :=
  (machine.refill channel [], machine.contents channel)

/-- Writes bytes to a channel. -/
def write (channel : Option Channel) (bytes : Bytes) : Machine :=
  match channel with
  | some (.queue index) => { machine with queues := machine.queues.modify index (·.push bytes) }
  | some (.file path) =>
    let before := (machine.disk.read path).toOption.getD ByteArray.empty
    match machine.disk.write path (before ++ toArray bytes) with
    | .ok disk => { machine with disk := disk }
    | .error _ => machine
  | _ => machine

end Machine

/-- The name that a path has among bytes. -/
def pathOf (bytes : Bytes) : String :=
  toText bytes

/-- The place where everything written is lost. -/
def nullDevice : String := "/dev/null"

/-- The bytes of a file, by its path. -/
def readFileAt (disk : Disk) (path : Bytes) : Except Disk.Cause Bytes :=
  if pathOf path = nullDevice then .ok [] else (disk.read (pathOf path)).map ofArray

/-- What tools say about a cause. -/
def reason : Disk.Cause → String
  | .missing => "No such file or directory"
  | .notPermitted => "Permission denied"
  | .occupied => "File exists"
  | .notDirectory => "Not a directory"
  | .isDirectory => "Is a directory"
  | .nameTooLong => "File name too long"
  | .nullCharacter => "Invalid argument"
  | .notText => "Invalid or incomplete multibyte or wide character"

/-- How a program comes to its end. -/
inductive Ending where
  /-- With a status, 0 if all went well. -/
  | exit (status : Nat)
  /-- By a signal. -/
  | killed (signal : Nat)
  deriving DecidableEq

/-- The status that stands for an ending. -/
def Ending.status : Ending → Nat
  | .exit status => status
  | .killed signal => 128 + signal

/-- The signals that end a program: number, name and how their effect is told. -/
def signals : List (Nat × String × String) :=
  [(1, "HUP", "Hangup"), (2, "INT", "Interrupt"), (3, "QUIT", "Quit"),
    (4, "ILL", "Illegal instruction"), (5, "TRAP", "Trace/breakpoint trap"), (6, "ABRT", "Aborted"),
    (7, "BUS", "Bus error"), (8, "FPE", "Floating point exception"), (9, "KILL", "Killed"),
    (10, "USR1", "User defined signal 1"), (11, "SEGV", "Segmentation fault"),
    (12, "USR2", "User defined signal 2"), (13, "PIPE", "Broken pipe"), (14, "ALRM", "Alarm clock"),
    (15, "TERM", "Terminated"), (16, "STKFLT", "Stack fault"), (24, "XCPU", "CPU time limit exceeded"),
    (25, "XFSZ", "File size limit exceeded"), (26, "VTALRM", "Virtual timer expired"),
    (27, "PROF", "Profiling timer expired"), (29, "IO", "I/O possible"), (30, "PWR", "Power failure"),
    (31, "SYS", "Bad system call")]

/-- The signals that do nothing to a program that does not ask for them. -/
def ignoredSignals : List (Nat × String) :=
  [(0, "EXIT"), (17, "CHLD"), (18, "CONT"), (23, "URG"), (28, "WINCH")]

/-- The signals by name. -/
def signalsByName : List (String × Nat) :=
  (signals.map fun signal => (signal.2.1, signal.1)) ++
    ignoredSignals.map fun signal => (signal.2, signal.1)

end ScriptBundler.Shell
