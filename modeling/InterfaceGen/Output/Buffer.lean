/-!
Text buffers and the pool from which they are taken. A buffer holds its text last character first,
so that its end is at hand. The pool keeps a bounded number of buffers for later use and hands out
empty ones only.
-/

namespace InterfaceGen

structure Buffer where
  reversed : List Char
  deriving DecidableEq

namespace Buffer

def empty : Buffer := ⟨[]⟩

def text (buffer : Buffer) : String :=
  String.ofList buffer.reversed.reverse

def push (buffer : Buffer) (text : String) : Buffer :=
  ⟨text.toList.reverse ++ buffer.reversed⟩

def clear (_ : Buffer) : Buffer := empty

@[simp] theorem text_empty : empty.text = "" := rfl

@[simp] theorem text_push (buffer : Buffer) (text : String) :
    (buffer.push text).text = buffer.text ++ text := by
  simp [Buffer.text, push, String.ofList_append]

@[simp] theorem text_clear (buffer : Buffer) : buffer.clear.text = "" := rfl

end Buffer

structure BufferPool where
  maxIdle : Nat
  idle : List Buffer
  deriving DecidableEq

namespace BufferPool

def ofSize (maxIdle : Nat) : BufferPool :=
  ⟨maxIdle, []⟩

def idleCount (pool : BufferPool) : Nat :=
  pool.idle.length

/-- Takes a buffer, the last one given back if there is one. -/
def acquire (pool : BufferPool) : Buffer × BufferPool :=
  match pool.idle.getLast? with
  | some buffer => (buffer.clear, { pool with idle := pool.idle.dropLast })
  | none => (.empty, pool)

/-- Gives a buffer back; a full pool lets it go. -/
def release (pool : BufferPool) (buffer : Buffer) : BufferPool :=
  if pool.idle.length < pool.maxIdle then { pool with idle := pool.idle ++ [buffer.clear] }
  else pool

theorem acquire_fst (pool : BufferPool) : pool.acquire.1 = .empty := by
  unfold acquire
  split <;> rfl

end BufferPool

/-- A pool together with the buffers taken from it, each held under a name. -/
structure BufferDesk where
  pool : BufferPool
  held : List (String × Buffer)

namespace BufferDesk

def ofSize (maxIdle : Nat) : BufferDesk :=
  ⟨.ofSize maxIdle, []⟩

def get? (desk : BufferDesk) (name : String) : Option Buffer :=
  desk.held.lookup name

def release (desk : BufferDesk) (name : String) : BufferDesk :=
  match desk.get? name with
  | some buffer => ⟨desk.pool.release buffer, desk.held.filter (·.1 != name)⟩
  | none => desk

/-- Takes a buffer under this name. The buffer held there before, if any, goes back afterwards. -/
def acquire (desk : BufferDesk) (name : String) : BufferDesk :=
  let (buffer, pool) := desk.pool.acquire
  let cleared := BufferDesk.release ⟨pool, desk.held⟩ name
  { cleared with held := (name, buffer) :: cleared.held }

def push (desk : BufferDesk) (name text : String) : BufferDesk :=
  { desk with
    held := desk.held.map fun entry =>
      if entry.1 = name then (entry.1, entry.2.push text) else entry }

end BufferDesk
end InterfaceGen
