import HeapSentry.Heap.Graph

/-!
# Known references

Some references are known to keep objects alive through no fault of the application, and some keep
nothing alive at all.  A list of matchers sorts references; the first that applies decides.
-/

namespace HeapSentry.Leak

open Heap

inductive FieldKind where
  | instanceField | staticField
  deriving DecidableEq, Repr

def FieldKind.referenceKind : FieldKind → ReferenceKind
  | .instanceField => .instanceField
  | .staticField => .staticField

structure Pattern where
  kind : FieldKind
  className : String
  fieldName : String
  deriving DecidableEq, Repr

namespace Pattern

def applies (p : Pattern) (g : Graph) (r : Reference) : Bool :=
  r.kind == p.kind.referenceKind && r.name == p.fieldName
    && (r.declaringClass >>= g.class?).any (·.name == p.className)

def text (p : Pattern) : String :=
  match p.kind with
  | .instanceField => s!"instance field {p.className}#{p.fieldName}"
  | .staticField => s!"static field {p.className}#{p.fieldName}"

end Pattern

/-- How a reference counts. -/
inductive Standing where
  | plain
  /-- What it leads to leaks by way of a library. -/
  | library (description : String)
  /-- It is not followed. -/
  | ignored
  deriving DecidableEq, Repr

/-- What describes the library that a reference leads into. -/
def Standing.library? : Standing → Option String
  | .library description => some description
  | .plain | .ignored => none

structure Matcher where
  pattern : Pattern
  /-- How the matched references count; none is the description of an ignored reference. -/
  library : Option String
  deriving DecidableEq, Repr

namespace Matcher

def isIgnored (m : Matcher) : Bool := m.library.isNone

def standing (m : Matcher) : Standing :=
  match m.library with
  | some description => .library description
  | none => .ignored

def indexFor (matchers : List Matcher) (g : Graph) (r : Reference) : Option Nat :=
  matchers.findIdx? fun m ↦ m.pattern.applies g r

/-- How a reference counts among some matchers. -/
def standingOf (matchers : List Matcher) (g : Graph) (r : Reference) : Standing :=
  match matchers.find? fun m ↦ m.pattern.applies g r with
  | some m => m.standing
  | none => .plain

private def instanceLeak (className fieldName description : String) : Matcher :=
  ⟨⟨.instanceField, className, fieldName⟩, some description⟩

private def staticLeak (className fieldName description : String) : Matcher :=
  ⟨⟨.staticField, className, fieldName⟩, some description⟩

/-- References of the framework that are known to retain objects of applications. -/
def catalogue : List Matcher := [
  instanceLeak "android.view.inputmethod.InputMethodManager" "mNextServedView"
    "InputMethodManager keeps a reference to the last focused view until another view gains focus.",
  instanceLeak "android.view.inputmethod.InputMethodManager" "mServedView"
    "InputMethodManager keeps a reference to the served view after the window is gone.",
  staticLeak "android.text.TextLine" "sCached"
    "TextLine caches recently used instances, each holding its last spanned text.",
  staticLeak "android.net.ConnectivityManager" "sInstance"
    "ConnectivityManager keeps the first Context it was created with in a static singleton.",
  instanceLeak "android.media.AudioManager" "mContext_static"
    "AudioManager keeps the first Context it was created with.",
  instanceLeak "android.app.ActivityThread$ActivityClientRecord" "nextIdle"
    ("ActivityClientRecord.nextIdle keeps destroyed activities reachable until the main thread is "
      ++ "idle."),
  instanceLeak "android.os.UserManager" "mContext"
    "UserManager keeps the first Context it was created with.",
  ⟨⟨.instanceField, "java.lang.ref.Reference", "referent"⟩, none⟩]

end Matcher

end HeapSentry.Leak
