import SnippetRunner.Text.Decimal

/-!
# Exit statuses

How a process ended: by itself with a code, or by a signal.
-/

namespace SnippetRunner.Child

/-- How a process ended. -/
inductive Status where
  | code (n : Nat)
  | signal (n : Nat)
  deriving DecidableEq, Repr

/-- The names of the signals, from number 1 on. -/
def signalNames : List String :=
  ["SIGHUP", "SIGINT", "SIGQUIT", "SIGILL", "SIGTRAP", "SIGABRT", "SIGBUS", "SIGFPE", "SIGKILL",
    "SIGUSR1", "SIGSEGV", "SIGUSR2", "SIGPIPE", "SIGALRM", "SIGTERM", "SIGSTKFLT", "SIGCHLD",
    "SIGCONT", "SIGSTOP", "SIGTSTP", "SIGTTIN", "SIGTTOU", "SIGURG", "SIGXCPU", "SIGXFSZ",
    "SIGVTALRM", "SIGPROF", "SIGWINCH", "SIGIO", "SIGPWR", "SIGSYS"]

/-- The number of the signal that cannot be caught. -/
def sigKill : Nat := 9

/-- The status in words. -/
def Status.describe : Status → String
  | .code n => "exit status: " ++ Text.decimal n
  | .signal n =>
    "signal: " ++ Text.decimal n ++
      (match signalNames[n - 1]? with
        | some name => " (" ++ name ++ ")"
        | none => "")

end SnippetRunner.Child
