import Iprotate.Firewall

/-!
# The files of a profile

The methods of `ConfigLoader` that generate the WireGuard, 3proxy and shadowsocks files of a profile. Each loads the
profile again and returns the loader with the defaults that this added.
-/

namespace Iprotate
namespace ConfigLoader

open ConfigParser Py

/-- `f"iprotate_{order}_{config_name}"` -/
def profileName (order configName : Str) : Str := "iprotate_" ++ order ++ "_" ++ configName

/-- `f"10.0.{order}.2/32"` -/
def interfaceIp (order : Str) : Str := "10.0." ++ order ++ ".2/32"

/-- `f"10.0.{order}.1/32"` -/
def peerIp (order : Str) : Str := "10.0." ++ order ++ ".1/32"

/-- `ip.split("/", 1)[0]` -/
def withoutMask (ip : Str) : Str := ip.takeWhile (· ≠ '/')

def peerWgPort : Str := "51821"

/-- A parser with the two sections of a WireGuard file. -/
def wgSections : ConfigParser := (ConfigParser.empty.addSection "Interface").addSection "Peer"

/-! ## `generate_peer_config` -/

def peerPostUp : Str :=
  "ufw route allow in on wg0 out on eth0; ufw default allow incoming; sysctl -w net.ipv4.ip_forward=1; " ++
    "iptables -t nat -I POSTROUTING -o eth0 -j MASQUERADE"

def peerPreDown : Str :=
  "ufw route delete allow in on wg0 out on eth0; iptables -t nat -D POSTROUTING -o eth0 -j MASQUERADE"

/-- The WireGuard file of the instance. -/
def peerConfig (api : ApiConfig) (order : Str) : Except ConfigError ConfigParser := do
  let p ← setOptions wgSections "Interface"
    [("PrivateKey", api.peerWgPrivateKey), ("ListenPort", peerWgPort), ("Address", peerIp order),
     ("PostUp", peerPostUp), ("PreDown", peerPreDown), ("MTU", "1500")]
  setOptions p "Peer" [("PublicKey", api.interfaceWgPublicKey), ("AllowedIPs", interfaceIp order)]

/-- The part of `generate_peer_config` on the firewall, whose exceptions are only logged. -/
def configureFirewall (configName : Str) : Py Unit :=
  tryCatch (do
      let fw ← Firewall.init configName
      fw.deleteRules
      fw.applyWhitelist)
    fun _ => pure ()

/-- `generate_peer_config` -/
def generatePeerConfig (l : ConfigLoader) (configName : Str) : Py (Str × ConfigLoader) := do
  configureFirewall configName
  let (aws, l) ← Py.ofConfig (l.loadAws configName)
  let configPath := "/opt/cloud-iprotate/profile_config/".toList ++ profileName aws.order configName
  let peer ← Py.ofConfig (peerConfig l.apiConfig aws.order)
  makedirs configPath
  writeFile (configPath ++ "/wg0.conf") (ConfigParser.write peer)
  let text ← readFile (configPath ++ "/wg0.conf")
  return (text, l)

/-! ## `generate_shadowsocks_config` -/

/-- The text of a JSON value without exceptions. -/
def jsonText (v : Json Empty) : Str := v.dumps fun e => nomatch e

/-- The file `auth.json`. -/
def authConfig (user passwd : Str) : Json Empty :=
  .obj [("password", .obj [("users", .arr [.obj [("user_name", .str user), ("password", .str passwd)]])])]

/-- The file `shadowsocks.json`. -/
def ssConfig (api : ApiConfig) (order : Int) (authPath : Option Str) : Json Empty :=
  let localEntry : List (Str × Json Empty) :=
    [("local_address", .str "0.0.0.0"), ("local_port", .num (socks5PortBase + order)), ("mode", .str "tcp_and_udp"),
     ("protocol", .str "socks")]
  let auth : List (Str × Json Empty) :=
    match authPath with
    | some path => [("socks5_auth_config_path", .str path)]
    | none => []
  .obj [("server", .str "localhost"), ("server_port", .num (ssBasePort + order)),
    ("password", .str api.interfaceWgPrivateKey), ("method", .str "aes-128-gcm"), ("mode", .str "tcp_and_udp"),
    ("fast_open", .bool true), ("locals", .arr [.obj (localEntry ++ auth)])]

/-- `generate_shadowsocks_config` -/
def generateShadowsocksConfig (l : ConfigLoader) (configName : Str) : Py ConfigLoader := do
  let user ← Py.ofConfig (l.config.get configName "user")
  let passwd ← Py.ofConfig (l.config.get configName "pass")
  let (aws, l) ← Py.ofConfig (l.loadAws configName)
  let directory := "/opt/cloud-iprotate/profile_config/".toList ++ profileName aws.order configName
  let order ← int aws.order
  let authPath : Option Str := if user ≠ [] ∧ passwd ≠ [] then some (directory ++ "/auth.json") else none
  authPath.forM fun path => writeFile path (jsonText (authConfig user passwd))
  writeFile (directory ++ "/shadowsocks.json") (jsonText (ssConfig l.apiConfig order authPath))
  return l

/-! ## `generate_3proxy_config` -/

/-- The text of the 3proxy file. -/
def proxyConfigString (profile user passwd ip : Str) (httpPort : Int) : Str :=
  let auth := user ≠ [] ∧ passwd ≠ []
  "nserver 8.8.8.8\nnserver 8.8.4.4\nnscache 65536\nallow *\n" ++
    "logformat \"G%H:%M:%S.%. %d-%m-%y %z  %N.%p %E %U %C:%c %R:%r %O %I %h %T\"\n" ++
    "log \"/opt/cloud-iprotate/profile_config/" ++ profile ++ "/log.txt\"\n" ++
    (if auth then "auth strong\n" else "") ++
    "proxy -n -p" ++ showInt httpPort ++ " -i0.0.0.0 -e" ++ withoutMask ip ++ "\n" ++
    (if auth then "users ".toList ++ user ++ ":CL:" ++ passwd ++ "\n" else [])

/-- `generate_3proxy_config` -/
def generate3proxyConfig (l : ConfigLoader) (configName : Str) : Py ConfigLoader := do
  let (aws, l) ← Py.ofConfig (l.loadAws configName)
  let profile := profileName aws.order configName
  let order ← int aws.order
  makedirs ("profile_config/" ++ profile)
  writeFile ("profile_config/" ++ profile ++ "/proxy_" ++ profile ++ ".cfg")
    (proxyConfigString profile aws.user aws.pass (interfaceIp aws.order) (httpPortBase + order))
  return l

/-! ## `generate_profile_config` -/

/-- The WireGuard file of this host. -/
def wgConfig (api : ApiConfig) (order interfaceName newip : Str) (wgPort : Int) : Except ConfigError ConfigParser := do
  let postUp := "ip rule add from ".toList ++ withoutMask (interfaceIp order) ++ " table " ++ order ++
    "; ip route add default via 10.0." ++ order ++ ".1 dev " ++ interfaceName ++ " table " ++ order ++
    "; wg set " ++ interfaceName ++ " peer " ++ api.peerWgPublicKey ++ " allowed-ips 0.0.0.0/0"
  let preDown := "wg set ".toList ++ interfaceName ++ " peer " ++ api.peerWgPublicKey ++ " allowed-ips " ++ peerIp order
  let p ← setOptions wgSections "Interface"
    [("PrivateKey", api.interfaceWgPrivateKey), ("ListenPort", showInt wgPort), ("Address", interfaceIp order),
     ("PostUp", postUp), ("PreDown", preDown), ("PostDown", "ip rule del table ".toList ++ order), ("MTU", "1500")]
  let p ← if newip ≠ [] then p.set "Peer" "Endpoint" (newip ++ ":" ++ peerWgPort) else .ok p
  setOptions p "Peer"
    [("PublicKey", api.peerWgPublicKey), ("AllowedIPs", peerIp order), ("PersistentKeepalive", "25")]

/-- `generate_profile_config` -/
def generateProfileConfig (l : ConfigLoader) (configName newip : Str) : Py ConfigLoader := do
  let (aws, l) ← Py.ofConfig (l.loadAws configName)
  let interfaceName : Str := "ip_" ++ aws.order ++ "_" ++ configName
  let profile := profileName aws.order configName
  let order ← int aws.order
  let wg ← Py.ofConfig (wgConfig l.apiConfig aws.order interfaceName newip (wgPortBase + order))
  makedirs ("profile_config/" ++ profile)
  writeFile ("profile_config/" ++ profile ++ "/" ++ interfaceName ++ ".conf") (ConfigParser.write wg)
  let l ← l.generate3proxyConfig configName
  l.generateShadowsocksConfig configName

end ConfigLoader
end Iprotate
