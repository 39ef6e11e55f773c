import QApr.Library.Text
import QApr.Qt.Variant

/-!
# Hosts

The properties of `Host`, whose getters put defaults in the place of missing values.
-/

namespace QApr.Application

open QApr.Qt QApr.Library

abbrev QByteArray := List Char

/-- The constants of `QStm::Network`. -/
structure Network where
  httpProtocol : QByteArray
  localhost : QByteArray
  httpPortDefault : Int
  deriving DecidableEq, Repr

/-- The fields of `HostPvt`. -/
@[ext] structure HostPvt where
  protocol : QByteArray
  hostName : QByteArray
  port : Int
  headers : QVariantHash
  basePath : QByteArray

/-- A host after its construction. -/
def HostPvt.new (network : Network) : HostPvt where
  protocol := network.httpProtocol
  hostName := network.localhost
  port := -1
  headers := []
  basePath := []

/-- Whether a text has no visible character. -/
def isBlank (text : QByteArray) : Bool := (CharTable.ascii.trimmed text).isEmpty

namespace Host

variable (network : Network) (p : HostPvt)

/-- `Host::protocol`. -/
def protocol : QByteArray :=
  if isBlank p.protocol then network.httpProtocol else p.protocol

/-- `Host::hostName`, which stores the default. -/
def hostName : QByteArray :=
  if p.hostName.isEmpty then network.localhost else p.hostName

/-- `Host::port`, which stores the default. -/
def port : Int :=
  if p.port ≤ 0 then network.httpPortDefault else p.port

/-- `Host::headers`. -/
def headers : QVariantHash := p.headers

/-- `Host::basePath`, which stores the default. -/
def basePath : QByteArray :=
  if isBlank p.basePath then ['/'] else p.basePath

/-- The values that the getters return. -/
def read : HostPvt where
  protocol := protocol network p
  hostName := hostName network p
  port := port network p
  headers := headers p
  basePath := basePath p

/-- A default that was stored is read again. -/
@[simp] theorem read_read : read network (read network p) = read network p := by
  apply HostPvt.ext
  · simp only [read, protocol]
    split <;> simp_all
  · simp only [read, hostName]
    split <;> simp_all
  · simp only [read, port]
    split <;> simp_all
  · rfl
  · simp only [read, basePath]
    split <;> rfl

end Host

end QApr.Application
