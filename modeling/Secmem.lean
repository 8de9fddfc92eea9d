import Secmem.Framework.Interleaving
import Secmem.Framework.Program
import Secmem.Framework.Critical
import Secmem.Framework.Loop
import Secmem.Framework.RelyGuarantee
import Secmem.Framework.Sequential
import Secmem.Framework.LinkedQueue
import Secmem.Framework.RWLock
import Secmem.Errors
import Secmem.Memory
import Secmem.Process.Model
import Secmem.Process.Registry
import Secmem.Process.Keyring
import Secmem.Process.Buffer
import Secmem.Process.Lifecycle
import Secmem.Process.Alone
import Secmem.Process.Abstract
import Secmem.Process.Access
import Secmem.Process.Methods
import Secmem.Process.Comparing
import Secmem.Process.Releasing
import Secmem.Process.Prekey
import Secmem.Process.Sealing
import Secmem.Process.Lifetime
import Secmem.Process.Runs
import Secmem.Process.Histories
import Secmem.Process.Destroyed
import Secmem.Canary
import Secmem.Arena.Model
import Secmem.Arena.Programs
import Secmem.Arena.Discipline
import Secmem.Arena.Keeps
import Secmem.Arena.Outlines
import Secmem.Arena.Safety
import Secmem.Arena.Mutex
import Secmem.Arena.Sizing
import Secmem.Arena.Canaries
import Secmem.Quarantine.Model
import Secmem.Quarantine.Discipline
import Secmem.Quarantine.Accounts
import Secmem.Argon2Pool.Model
import Secmem.Argon2Pool.Discipline
import Secmem.Argon2Pool.Safety
import Secmem.Lock.BufferRWLock
import Secmem.Lock.Invariant
import Secmem.Lock.Exclusion
import Secmem.Lock.Progress
import Secmem.Framework.Utf8
import Secmem.Redact.Sanitizer
import Secmem.Redact.Values
import Secmem.Redact.Handler
import Secmem.Redact.Noninterference
import Secmem.Redact.SelfRendering
import Secmem.HttpAuth.Transport
import Secmem.Framework.ByteStrings
import Secmem.Framework.Base64
import Secmem.Framework.SliceWriter
import Secmem.Framework.Der
import Secmem.Framework.Ownership
import Secmem.Crypto.Errors
import Secmem.Crypto.Signers
import Secmem.Crypto.OpenSSH
import Secmem.Crypto.Parse
import Secmem.Crypto.Pbes2
import Secmem.Crypto.ScryptParams
import Secmem.Crypto.Pbes2Grammar
import Secmem.Crypto.Encrypted
import Secmem.Crypto.Accounting
import Secmem.Crypto.Granted
import Secmem.Crypto.Pkcs1
import Secmem.Crypto.RsaSigner
import Secmem.Crypto.Ordinary
import Secmem.Crypto.Protection
import Secmem.Crypto.Retired
import Secmem.Crypto.OneBit
import Secmem.Crypto.Marshal
import Secmem.Crypto.RoundTrip
import Secmem.Termination.Model
import Secmem.Termination.Rounds
import Secmem.Termination.Uninstall
import Secmem.AesGcm.Model
import Secmem.AesGcm.Discipline
import Secmem.AesGcm.Scope
import Secmem.Framework.ByteMemory
import Secmem.Framework.KeyStream
import Secmem.Framework.LittleEndian
import Secmem.InPlace.Modes
import Secmem.InPlace.ChaCha
import Secmem.InPlace.Hmac
import Secmem.InPlace.Pbkdf2
import Secmem.Framework.BlockStream
import Secmem.Argon2.Blake2b
import Secmem.Argon2.LongHash
import Secmem.Redact.Allowlist
import Secmem.Argon2.Layout
import Secmem.Crypto.Passphrase
import Secmem.Redact.Keys
import Secmem.Redact.Needs
import Secmem.Redact.RenderBound
import Secmem.Redact.Lazy
import Secmem.Crypto.BcryptPbkdf
