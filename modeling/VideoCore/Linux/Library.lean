import VideoCore.Linux

/-!
# Userland libraries

The libraries that come with the firmware exist on its own system images only, so they are looked
for when the program runs, in the places where those images keep them and then wherever the
loader looks by itself. A library counts as loaded once all the functions that are needed of it
have been found.
-/

namespace VideoCore.Linux

/-- A library, and the functions that are needed of it in the order in which they are looked
up. -/
structure LibraryNeeds where
  name : String
  symbols : List String
  deriving DecidableEq, Repr

namespace LibraryNeeds

/-- What is known of the chip. -/
def chip : LibraryNeeds where
  name := "libbcm_host.so"
  symbols := ["bcm_host_get_peripheral_address"]

/-- The message service, with the GPU service and the command interpreter on top of it. -/
def messages : LibraryNeeds where
  name := "libbcm_host.so"
  symbols :=
    ["vchi_initialise", "vchi_connect", "vchi_disconnect", "vc_vchi_gencmd_init", "vc_gencmd",
     "vc_gencmd_stop", "vc_gpuserv_init", "vc_gpuserv_deinit", "vc_gpuserv_execute_code"]

/-- The shared memory service. -/
def sharedMemory : LibraryNeeds where
  name := "libvcsm.so"
  symbols :=
    ["vcsm_init_ex", "vcsm_exit", "vcsm_malloc_cache", "vcsm_free", "vcsm_vc_addr_from_hdl",
     "vcsm_lock", "vcsm_unlock_ptr_sp", "vcsm_clean_invalid2"]

end LibraryNeeds

/-- Where the system images keep the libraries. -/
def libraryFolders : List String :=
  ["/opt/vc/lib/", "/usr/lib/arm-linux-gnueabihf/"]

/-- All functions are bound at once, and other libraries may use them. -/
def loadFlags : UInt32 := 2 ||| 256

/-- Tries paths one after the other. The reason for a failure is that of the last path tried, or
the one given if there was none to try. -/
def openFirst (paths : List String) (reason : Option String) :
    Dialog Linux (Except (Option String) Library) := do
  match paths with
  | [] => return .error reason
  | path :: rest =>
    match ← (ask (.openLibrary path loadFlags) : Dialog Linux (Except String Library)) with
    | .ok library => return .ok library
    | .error reason => openFirst rest (some reason)

/-- Opens a library. If it is found nowhere, the reason given is that of the last folder. -/
def openLibrary (name : String) : Opening Library := do
  match ← (openFirst (libraryFolders.map (· ++ name)) none : Dialog Linux _) with
  | .ok library => return library
  | .error fromFolders =>
    match ← (ask (.openLibrary name loadFlags) : Dialog Linux (Except String Library)) with
    | .ok library => return library
    | .error reason => throw (.library name (fromFolders.getD reason))

/-- Looks functions up one after the other, until one is missing. -/
def findSymbols (library : Library) : List String → Dialog Linux (Except String Unit)
  | [] => return .ok ()
  | symbol :: rest => do
    match ← (ask (.findSymbol library symbol) : Dialog Linux (Except String Unit)) with
    | .ok () => findSymbols library rest
    | .error reason => return .error reason

/-- Loads a library with everything that is needed of it. -/
def loadLibrary (needs : LibraryNeeds) : Opening Library := do
  let library ← openLibrary needs.name
  match ← (findSymbols library needs.symbols : Dialog Linux _) with
  | .ok () => return library
  | .error reason =>
    ask (.closeLibrary library)
    throw (.library needs.name reason)

end VideoCore.Linux
